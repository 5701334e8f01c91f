import DirectiveRunner.Config.Config
import DirectiveRunner.Proofs.Grouping
import DirectiveRunner.Proofs.Written
import Mathlib.Data.List.Induction
import Mathlib.Data.List.Nodup
/-!
# The file types of a configuration

The entries for file types are merged into the known ones one after the other, and each of them
replaces the type of its extension or adds one. So the types that come out depend on the entries as
follows (`FileType.MadeOf`): the extensions are those known from the start and then the new ones, each
once and in the order in which they first appear, and an extension has the pattern of its last entry.
It is the first entry of a new extension that has to have a pattern (`FileType.Admissible`). Which
patterns are accepted is up to the engine that compiles them. Nothing is asked of it but that it accepts
the comment pattern of TeX (`FileType.AcceptsTex`).

Both are said of all entries at once and proved by adding one at the end, which is how they are merged.
-/

namespace DirectiveRunner

namespace FileType

variable {engine : Regex.Engine} {e : FileTypeEntry} {entries : List FileTypeEntry}
  {type t : FileType} {types : List FileType} {x : String}

theorem extension_of_compile? {extension pattern : String}
    (h : compile? extension pattern engine = some type) : type.extension = extension := by
  obtain ⟨_, -, rfl⟩ := compile?_eq_some_iff.mp h
  rfl

/-- The engine accepts the pattern of the file types that are known from the start. -/
def AcceptsTex (engine : Regex.Engine) : Prop := ∃ regex, engine.compile? texPattern = some regex

theorem AcceptsTex.compile? (accepts : AcceptsTex engine) :
    ∃ regex, ∀ extension, compile? extension texPattern engine =
      some ⟨extension, ⟨texPattern, regex⟩⟩ := by
  obtain ⟨regex, compiled⟩ := accepts
  exact ⟨regex, fun _ => compile?_eq_some_iff.mpr ⟨regex, compiled, rfl⟩⟩

theorem acceptsTex_standard : AcceptsTex .standard := ⟨commentRegex, regex_texPattern⟩

/-! ## One more entry -/

theorem extensions_merge (type : FileType) (types : List FileType) :
    (merge type types).map (·.extension) =
      if type.extension ∈ types.map (·.extension) then types.map (·.extension)
      else types.map (·.extension) ++ [type.extension] := by
  induction types with
  | nil => simp [merge]
  | cons t ts ih =>
    rw [merge]
    by_cases same : t.extension = type.extension
    · simp [same]
    · have other : ¬type.extension = t.extension := fun h => same h.symm
      rw [if_neg same, List.map_cons, ih]
      simp only [List.map_cons, List.mem_cons, other, false_or]
      split <;> rfl

/-- What is there after a file type has been merged is that type, or one of another extension that was
there before. -/
theorem mem_merge (distinct : (types.map (·.extension)).Nodup) (h : t ∈ merge type types) :
    t = type ∨ t ∈ types ∧ t.extension ≠ type.extension := by
  induction types with
  | nil => exact .inl (List.mem_singleton.mp h)
  | cons first types ih =>
    rw [List.map_cons, List.nodup_cons] at distinct
    rw [merge] at h
    split at h
    · next same =>
      rcases List.mem_cons.mp h with rfl | later
      · exact .inl rfl
      · refine .inr ⟨List.mem_cons_of_mem _ later, fun again => distinct.1 ?_⟩
        rw [same, ← again]
        exact List.mem_map_of_mem later
    · next other =>
      rcases List.mem_cons.mp h with rfl | later
      · exact .inr ⟨List.mem_cons_self, other⟩
      · obtain rfl | ⟨old, apart⟩ := ih distinct.2 later
        · exact .inl rfl
        · exact .inr ⟨List.mem_cons_of_mem _ old, apart⟩

/-- An entry gives a file type if its extension is known or it has a pattern, and the pattern is
accepted. -/
theorem fileType_eq_ok_iff : e.fileType engine types = .ok type ↔
    (e.pattern = none → e.extension ∈ types.map (·.extension)) ∧
      compile? e.extension (e.pattern.getD texPattern) engine = some type := by
  have known : e.extension ∈ types.map (·.extension) ↔
      types.any (·.extension = e.extension) = true := by
    simp [List.any_eq_true, List.mem_map]
  rw [known]
  unfold FileTypeEntry.fileType
  cases given : e.pattern with
  | some pattern => cases made : compile? e.extension pattern engine <;> simp [made]
  | none =>
    cases types.any (·.extension = e.extension)
    · simp
    · cases made : compile? e.extension texPattern engine <;> simp [made]

theorem mergeAll_nil (engine : Regex.Engine) (types : List FileType) :
    mergeAll engine types [] = .ok types := rfl

theorem mergeAll_concat_eq_ok_iff {known : List FileType} :
    mergeAll engine known (entries ++ [e]) = .ok types ↔
      ∃ types' type, mergeAll engine known entries = .ok types' ∧
        e.fileType engine types' = .ok type ∧ merge type types' = types := by
  have last : mergeAll engine known (entries ++ [e]) =
      (mergeAll engine known entries).bind fun types =>
        (e.fileType engine types).map (merge · types) := by
    simp only [mergeAll, List.foldlM_append, List.foldlM_cons, List.foldlM_nil, bind_pure]
    rfl
  rw [last]
  cases mergeAll engine known entries with
  | error => simp [Except.bind]
  | ok types' => cases made : e.fileType engine types' <;> simp [Except.bind, Except.map, made]

/-! ## The extensions -/

/-- The extensions after some entries: those known from the start, and the new ones in the order in
which they first appear. -/
def extensionsAfter (entries : List FileTypeEntry) : List String :=
  defaultExtensions ++ ((entries.map (·.extension)).filter (· ∉ defaultExtensions)).eraseDups

theorem mem_extensionsAfter : x ∈ extensionsAfter entries ↔
    x ∈ defaultExtensions ∨ ∃ e ∈ entries, e.extension = x := by
  simp only [extensionsAfter, List.mem_append, List.mem_eraseDups, List.mem_filter, List.mem_map,
    decide_eq_true_eq]
  by_cases known : x ∈ defaultExtensions <;> simp [known]

theorem eraseDups_concat (xs : List String) (x : String) :
    (xs ++ [x]).eraseDups = if x ∈ xs then xs.eraseDups else xs.eraseDups ++ [x] := by
  rw [List.eraseDups_append]
  split <;> simp_all [List.removeAll, List.eraseDups_cons]

theorem extensionsAfter_concat (entries : List FileTypeEntry) (e : FileTypeEntry) :
    extensionsAfter (entries ++ [e]) =
      if e.extension ∈ extensionsAfter entries then extensionsAfter entries
      else extensionsAfter entries ++ [e.extension] := by
  by_cases known : e.extension ∈ defaultExtensions
  · rw [if_pos (mem_extensionsAfter.mpr (.inl known))]
    simp [extensionsAfter, known]
  · have split : (((entries ++ [e]).map (·.extension)).filter (· ∉ defaultExtensions)) =
        ((entries.map (·.extension)).filter (· ∉ defaultExtensions)) ++ [e.extension] := by
      simp [known]
    rw [extensionsAfter, split, eraseDups_concat, apply_ite (defaultExtensions ++ ·),
      ← List.append_assoc]
    simp [extensionsAfter, known]

theorem nodup_extensionsAfter (entries : List FileTypeEntry) : (extensionsAfter entries).Nodup := by
  induction entries using List.reverseRecOn with
  | nil => decide
  | append_singleton entries e ih =>
    rw [extensionsAfter_concat]
    split
    · exact ih
    · next new =>
      rw [← List.concat_eq_append]
      exact List.Nodup.concat new ih

/-! ## The patterns -/

/-- The pattern that an extension has after some entries. It is the one of its last entry. It is the
one of TeX if that entry gives none, or if the extension is known from the start and has no entry. -/
inductive PatternOf (entries : List FileTypeEntry) (extension : String) : String → Prop
  | entry {before e after} : entries = before ++ e :: after → e.extension = extension →
      (∀ a ∈ after, a.extension ≠ extension) →
      PatternOf entries extension (e.pattern.getD texPattern)
  | known : extension ∈ defaultExtensions → (∀ e ∈ entries, e.extension ≠ extension) →
      PatternOf entries extension texPattern

namespace PatternOf

variable {pattern : String}

theorem concat_self (entries : List FileTypeEntry) (e : FileTypeEntry) :
    PatternOf (entries ++ [e]) e.extension (e.pattern.getD texPattern) :=
  .entry rfl rfl (by simp)

theorem concat (h : PatternOf entries x pattern) (other : e.extension ≠ x) :
    PatternOf (entries ++ [e]) x pattern := by
  cases h with
  | @entry before last after split same later =>
    have split : entries ++ [e] = before ++ last :: (after ++ [e]) := by simp [split]
    exact .entry split same (List.forall_mem_append.mpr ⟨later, List.forall_mem_singleton.mpr other⟩)
  | known known none =>
    exact .known known (List.forall_mem_append.mpr ⟨none, List.forall_mem_singleton.mpr other⟩)

end PatternOf

/-! ## All entries -/

/-- The file types are what some entries make of those known from the start. -/
structure MadeOf (engine : Regex.Engine) (entries : List FileTypeEntry) (types : List FileType) :
    Prop where
  distinct : (types.map (·.extension)).Nodup
  /-- Those known from the start come first, and then the new ones as they first appear. -/
  extensions : types.map (·.extension) = extensionsAfter entries
  /-- Each of them has the pattern that its extension has after the entries. -/
  patterns : ∀ t ∈ types, ∃ pattern, PatternOf entries t.extension pattern ∧
    compile? t.extension pattern engine = some t

/-- The entries can be merged into the file types that are known from the start. -/
structure Admissible (engine : Regex.Engine) (entries : List FileTypeEntry) : Prop where
  /-- Every pattern that is given is accepted. -/
  compile : ∀ e ∈ entries, ∀ pattern, e.pattern = some pattern →
    ∃ regex, engine.compile? pattern = some regex
  /-- The first entry for an extension that is not known from the start gives a pattern. -/
  given : ∀ before e after, entries = before ++ e :: after → e.extension ∉ defaultExtensions →
    (∀ b ∈ before, b.extension ≠ e.extension) → e.pattern ≠ none

theorem admissible_nil (engine : Regex.Engine) : Admissible engine [] := ⟨by simp, by simp⟩

theorem admissible_concat_iff : Admissible engine (entries ++ [e]) ↔ Admissible engine entries ∧
    (∀ pattern, e.pattern = some pattern → ∃ regex, engine.compile? pattern = some regex) ∧
    (e.pattern = none → e.extension ∈ extensionsAfter entries) := by
  constructor
  · rintro ⟨compile, given⟩
    refine ⟨⟨fun b mem => compile b (List.mem_append_left _ mem), fun before b after split => ?_⟩,
      compile e List.mem_concat_self, fun none => mem_extensionsAfter.mpr ?_⟩
    · exact given before b (after ++ [e]) (by simp [split])
    · -- otherwise the entry is the first for its extension
      refine Decidable.byContradiction fun unknown => ?_
      obtain ⟨new, first⟩ := not_or.mp unknown
      exact given entries e [] rfl new (fun b mem same => first ⟨b, mem, same⟩) none
  · rintro ⟨⟨compile, given⟩, compiles, known⟩
    refine ⟨List.forall_mem_append.mpr ⟨compile, List.forall_mem_singleton.mpr compiles⟩, ?_⟩
    rintro before b after split new first
    rcases List.eq_nil_or_concat after with rfl | ⟨after, last, rfl⟩
    · obtain ⟨rfl, rfl⟩ := List.append_singleton_inj.mp split
      rintro none
      obtain old | ⟨a, mem, same⟩ := mem_extensionsAfter.mp (known none)
      · exact new old
      · exact first a mem same
    · rw [List.concat_eq_append, ← List.cons_append, ← List.append_assoc] at split
      exact given before b after (List.append_singleton_inj.mp split).1 new first

theorem madeOf_nil (accepts : AcceptsTex engine) : MadeOf engine [] (defaults engine) := by
  obtain ⟨regex, compiled⟩ := accepts.compile?
  have extensions : (defaults engine).map (·.extension) = extensionsAfter [] := by
    simp only [defaults, compiled, List.filterMap_eq_map', List.map_map]
    rfl
  refine ⟨extensions ▸ nodup_extensionsAfter [], extensions, fun t mem => ?_⟩
  obtain ⟨extension, known, compiled⟩ := List.mem_filterMap.mp mem
  rw [extension_of_compile? compiled]
  exact ⟨texPattern, .known known (by simp), compiled⟩

/-- One more entry keeps the file types as they are to be. -/
theorem MadeOf.concat (h : MadeOf engine entries types) (made : e.fileType engine types = .ok type) :
    MadeOf engine (entries ++ [e]) (merge type types) := by
  have compiled := (fileType_eq_ok_iff.mp made).2
  have extension := extension_of_compile? compiled
  have extensions : (merge type types).map (·.extension) = extensionsAfter (entries ++ [e]) := by
    rw [extensions_merge, extensionsAfter_concat, h.extensions, extension]
  refine ⟨extensions ▸ nodup_extensionsAfter _, extensions, fun t mem => ?_⟩
  obtain rfl | ⟨old, other⟩ := mem_merge h.distinct mem
  · rw [extension]
    exact ⟨_, .concat_self entries e, compiled⟩
  · obtain ⟨pattern, is, compiled⟩ := h.patterns t old
    rw [extension] at other
    exact ⟨pattern, is.concat (Ne.symm other), compiled⟩

theorem madeOf_of_mergeAll (accepts : AcceptsTex engine)
    (h : mergeAll engine (defaults engine) entries = .ok types) : MadeOf engine entries types := by
  induction entries using List.reverseRecOn generalizing types with
  | nil =>
    rw [mergeAll_nil, Except.ok.injEq] at h
    exact h ▸ madeOf_nil accepts
  | append_singleton entries e ih =>
    obtain ⟨types', type, before, made, rfl⟩ := mergeAll_concat_eq_ok_iff.mp h
    exact (ih before).concat made

theorem exists_mergeAll_iff (accepts : AcceptsTex engine) :
    (∃ types, mergeAll engine (defaults engine) entries = .ok types) ↔ Admissible engine entries := by
  -- the last entry is merged into what the others made, so the entries are taken from the back
  induction entries using List.reverseRecOn with
  | nil => exact iff_of_true ⟨_, mergeAll_nil engine _⟩ (admissible_nil engine)
  | append_singleton entries e ih =>
    rw [admissible_concat_iff, ← ih]
    constructor
    · rintro ⟨_, merged⟩
      obtain ⟨types, type, before, made, -⟩ := mergeAll_concat_eq_ok_iff.mp merged
      obtain ⟨known, compiled⟩ := fileType_eq_ok_iff.mp made
      rw [(madeOf_of_mergeAll accepts before).extensions] at known
      refine ⟨⟨types, before⟩, fun pattern given => ?_, known⟩
      rw [given] at compiled
      obtain ⟨regex, accepted, -⟩ := compile?_eq_some_iff.mp compiled
      exact ⟨regex, accepted⟩
    · rintro ⟨⟨types, before⟩, compiles, known⟩
      rw [← (madeOf_of_mergeAll accepts before).extensions] at known
      have made : ∃ type, compile? e.extension (e.pattern.getD texPattern) engine = some type := by
        cases given : e.pattern with
        | none =>
          obtain ⟨regex, compiled⟩ := accepts.compile?
          exact ⟨_, compiled e.extension⟩
        | some pattern =>
          obtain ⟨regex, compiled⟩ := compiles pattern given
          exact ⟨_, compile?_eq_some_iff.mpr ⟨regex, compiled, rfl⟩⟩
      obtain ⟨type, made⟩ := made
      exact ⟨_, mergeAll_concat_eq_ok_iff.mpr
        ⟨types, type, before, fileType_eq_ok_iff.mpr ⟨known, made⟩, rfl⟩⟩

end FileType

/-! ## Configurations -/

namespace Config

variable {c : Config} {valueOf? : String → Option String} {directory : Path}
  {engine : Regex.Engine}

/-- The settings other than the file types are valid: the paths name variables that exist, and
directives may be run. -/
structure OthersValid (valueOf? : String → Option String) (directory : Path) (c : Config) : Prop where
  /-- The rule paths can be expanded. -/
  paths : ∀ raw ∈ c.paths, ∃ p, expandPath valueOf? directory raw = .ok p
  loops : c.maxLoops ≠ some 0
  /-- The path of the checksums can be expanded, if they are kept. -/
  reference : ∀ raw, c.reference = some raw → isBlankText raw = false →
    ∃ p, expandPath valueOf? directory raw = .ok p

theorem OthersValid.referencePath (h : c.OthersValid valueOf? directory) :
    ∃ reference, c.referencePath valueOf? directory = .ok reference := by
  unfold Config.referencePath
  cases given : c.reference with
  | none => exact ⟨_, rfl⟩
  | some raw =>
    cases blank : isBlankText raw with
    | true => exact ⟨none, by simp [blank]⟩
    | false =>
      obtain ⟨p, expanded⟩ := h.reference raw given blank
      exact ⟨some p, by simp [blank, expanded, Except.map]⟩

/-- If the other settings are valid, it depends on the file types whether there are options. -/
theorem OthersValid.options (h : c.OthersValid valueOf? directory) (engine : Regex.Engine) :
    match FileType.mergeAll engine (FileType.defaults engine) c.fileTypes with
    | .ok types => ∃ o, c.options valueOf? directory engine = .ok o ∧ o.fileTypes = types
    | .error e => c.options valueOf? directory engine = .error e := by
  obtain ⟨rulePaths, expanded⟩ := exists_mapM_eq_ok_iff.mpr h.paths
  obtain ⟨reference, kept⟩ := h.referencePath
  have loops : c.checkedLoops = .ok c.maxLoops := if_neg h.loops
  unfold Config.options
  rw [expanded, loops, kept]
  split
  · next merged =>
    simp only [bind, Except.bind, merged]
    exact ⟨_, rfl, rfl⟩
  · next failed => simp only [bind, Except.bind, failed]

/-- **File types.** With any engine that accepts the comment pattern of TeX, a configuration whose other
settings are valid is accepted just if its entries for file types can be merged into those known from
the start, and the file types of the options are what the entries make of them. -/
theorem options_fileTypes (accepts : FileType.AcceptsTex engine)
    (valid : c.OthersValid valueOf? directory) :
    ((∃ o, c.options valueOf? directory engine = .ok o) ↔
        FileType.Admissible engine c.fileTypes) ∧
      ∀ o, c.options valueOf? directory engine = .ok o →
        FileType.MadeOf engine c.fileTypes o.fileTypes := by
  have options := valid.options engine
  rw [← FileType.exists_mergeAll_iff accepts]
  cases merged : FileType.mergeAll engine (FileType.defaults engine) c.fileTypes with
  | error e =>
    rw [merged] at options
    simp [show c.options valueOf? directory engine = .error e from options]
  | ok types =>
    rw [merged] at options
    obtain ⟨o, options, rfl⟩ := options
    refine ⟨iff_of_true ⟨o, options⟩ ⟨_, rfl⟩, fun o' options' => ?_⟩
    obtain rfl := Except.ok.inj (options.symm.trans options')
    exact FileType.madeOf_of_mergeAll accepts merged

/-- A configuration with a new extension, which is given twice and the second time without a pattern,
and with another pattern for a known one. -/
def ofSweave : Config where
  paths := ["rules"]
  maxLoops := some 5
  reference := some ""
  fileTypes := [⟨"Rnw", some "^\\s*#\\s+"⟩, ⟨"tex", some "^\\s*%%\\s+"⟩, ⟨"Rnw", none⟩]

theorem options_fileTypes_ofSweave :
    let valueOf? : String → Option String := fun _ => none
    FileType.AcceptsTex .standard ∧ ofSweave.OthersValid valueOf? ⟨"/work"⟩ ∧
      FileType.Admissible .standard ofSweave.fileTypes ∧
      ∃ o, ofSweave.options valueOf? ⟨"/work"⟩ = .ok o ∧
        o.fileTypes.map (·.extension) = ["tex", "dtx", "ltx", "drv", "ins", "Rnw"] := by
  intro valueOf?
  have valid : ofSweave.OthersValid valueOf? ⟨"/work"⟩ := by
    refine ⟨List.forall_mem_singleton.mpr ⟨⟨"/work/rules"⟩, by decide +kernel⟩, by decide, ?_⟩
    rintro _ ⟨⟩ written
    cases written
  have admissible : FileType.Admissible .standard ([] ++ [⟨"Rnw", some "^\\s*#\\s+"⟩] ++
      [⟨"tex", some "^\\s*%%\\s+"⟩] ++ [⟨"Rnw", none⟩]) := by
    simp only [FileType.admissible_concat_iff]
    refine ⟨⟨⟨FileType.admissible_nil _, ?_, by decide⟩, ?_, by decide⟩, ?_, by decide⟩
    · rintro _ ⟨⟩
      exact Option.isSome_iff_exists.mp (by decide +kernel)
    · rintro _ ⟨⟩
      exact Option.isSome_iff_exists.mp (by decide +kernel)
    · rintro _ ⟨⟩
  have accepts := FileType.acceptsTex_standard
  obtain ⟨accepted, made⟩ := options_fileTypes accepts valid
  obtain ⟨o, options⟩ := accepted.mpr admissible
  exact ⟨accepts, valid, admissible, o, options, (made o options).extensions.trans (by decide)⟩

end Config

end DirectiveRunner
