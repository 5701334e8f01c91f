import DirectiveRunner.Proofs.Reference
import DirectiveRunner.Proofs.Rounds
import DirectiveRunner.Proofs.Route
/-!
# Which file a rule is loaded from

A directive names a rule, and the name becomes part of a path. That it cannot lead out of the rule
paths is due to both ends: the identifiers that are read hold letters, digits, underscores and
hyphens only (`identifier_of_mem_extract`), and the names made of them are single steps of a path,
none of them back (`proper_of_mem_candidates`), so that what is found lies right in one of the
directories (`Rule.LiesIn`).

Which one it is follows from the order of the search, directories first and names second
(`Rule.resolve_eq_ok_iff`).
-/

namespace DirectiveRunner

/-! ## Identifiers -/

namespace Directive

theorem identifier_of_readRest? {ident cs : List Char} {f : Form}
    (h : readRest? ident cs = some f) : f.identifier = ident := by
  unfold readRest? at h
  dsimp only at h
  split at h
  · next found =>
    cases h
    split at found
    · split at found
      · obtain ⟨_, part, _, -, read, -⟩ := List.findSome?_eq_some_iff.mp found
        obtain ⟨c, -, rfl⟩ := Option.map_eq_some_iff.mp read
        rfl
      · cases found
    · cases found
  · obtain ⟨c, -, rfl⟩ := Option.map_eq_some_iff.mp h
    rfl

theorem identifier_of_readUpTo? {cs : List Char} {f : Form} {n : Nat}
    (h : readUpTo? cs n = some f) : ∃ k < n, f.identifier = cs.take (k + 1) := by
  induction n with
  | zero => cases h
  | succ n ih =>
    unfold readUpTo? at h
    split at h
    · next found =>
      cases h
      exact ⟨n, Nat.lt_succ_self n, identifier_of_readRest? found⟩
    · obtain ⟨k, less, same⟩ := ih h
      exact ⟨k, Nat.lt_succ_of_lt less, same⟩

/-- Whether a text may stand as an identifier: it is not empty and holds nothing but the characters of
identifiers. -/
def IsIdentifier (text : List Char) : Prop :=
  text ≠ [] ∧ ∀ c ∈ text, isIdentifierChar c = true

/-- What is read as an identifier is one. -/
theorem identifier_of_readForm? {cs : List Char} {f : Form} (h : readForm? cs = some f) :
    IsIdentifier f.identifier := by
  obtain ⟨k, less, same⟩ := identifier_of_readUpTo? h
  have start : f.identifier <+: (Text.trimStart cs).takeWhile isIdentifierChar := by
    rw [same]
    refine List.prefix_of_prefix_length_le (List.take_prefix _ _) (List.takeWhile_prefix _) ?_
    exact Nat.le_trans (List.length_take_le _ _) less
  refine ⟨?_, fun c mem => List.mem_takeWhile_imp (start.subset mem)⟩
  -- there is a character to be taken, since the text is at least as long as what may be taken of it
  have long := (List.takeWhile_prefix (l := Text.trimStart cs) isIdentifierChar).length_le
  rintro empty
  rw [empty] at same
  have taken := congrArg List.length same
  rw [List.length_nil, List.length_take] at taken
  omega

/-- The directives of a text are named by identifiers. -/
theorem identifier_of_mem_extract {lines : List String} {headerOnly : Bool} {type : FileType}
    {ds : List Directive} (h : extract lines headerOnly type = .ok ds) {d : Directive}
    (mem : d ∈ ds) : IsIdentifier d.identifier.toList := by
  obtain ⟨r, read⟩ := ofRaw_of_mem_extract h mem
  obtain ⟨f, form, made⟩ := ofRaw_eq_ok_iff.mp read
  obtain ⟨parameters, -, -, rfl⟩ := ofForm_eq_ok_iff.mp made
  rw [String.toList_ofList]
  exact identifier_of_readForm? form

/-- What is attached to a file are copies of the directives for the files they are for. -/
theorem copyFor_of_mem_attach {ds attached : List Directive} {file : Path}
    (h : attach ds file = .ok attached) {d : Directive} (mem : d ∈ attached) :
    ∃ d₀ ∈ ds, ∃ targets, Targets file d₀ targets ∧ ∃ target ∈ targets, d₀.CopyFor target d := by
  unfold attach at h
  cases each : ds.mapM (copies file) with
  | error e =>
    rw [each] at h
    cases h
  | ok copied =>
    rw [each] at h
    cases h
    obtain ⟨cs, listed, mem⟩ := List.mem_flatten.mp mem
    obtain ⟨d₀, mem₀, made⟩ := exists_of_mem_mapM each cs listed
    obtain ⟨targets, are, for_⟩ := copiedTo_of_copies made
    refine ⟨d₀, mem₀, targets, are, ?_⟩
    clear made listed are
    induction for_ with
    | nil => cases mem
    | cons first _ ih =>
      rcases List.mem_cons.mp mem with rfl | later
      · exact ⟨_, List.mem_cons_self, first.1⟩
      · obtain ⟨target, among, copy⟩ := ih later
        exact ⟨target, List.mem_cons_of_mem _ among, copy⟩

/-- Directives keep their identifiers when they are attached. -/
theorem identifier_of_mem_attach {ds attached : List Directive} {file : Path}
    (h : attach ds file = .ok attached) {d : Directive} (mem : d ∈ attached) :
    ∃ d₀ ∈ ds, d.identifier = d₀.identifier := by
  obtain ⟨d₀, mem₀, _, _, _, _, copy⟩ := copyFor_of_mem_attach h mem
  exact ⟨d₀, mem₀, copy.identifier⟩

end Directive

/-! ## The search -/

namespace Rule

variable {files : FileTree} {identifier : String} {paths : List Path} {p dir : Path} {n : String}

theorem candidates_eq (identifier : String) : candidates identifier =
    [identifier ++ ".yaml", identifier ++ ".toml", "arara-rule-" ++ identifier ++ ".yaml"] := by
  simp [candidates, tomlExtension, String.append_assoc]

/-- `n` in `dir` is the first candidate that is a file, where all candidates in a directory come before
those in the next one. -/
def FoundFirst (files : FileTree) (identifier : String) (paths : List Path) (dir : Path)
    (n : String) : Prop :=
  (∃ before after, paths = before ++ dir :: after ∧
      ∀ other ∈ before, ∀ m ∈ candidates identifier, files.isFile (other.join m) = false) ∧
    (∃ before after, candidates identifier = before ++ n :: after ∧
      ∀ m ∈ before, files.isFile (dir.join m) = false) ∧
    files.isFile (dir.join n) = true

/-- There is a directory at the path `dir`, and a file right in it that has the name `n` and is found
as `dir/n`. -/
def LiesIn (files : FileTree) (dir : Path) (n : String) : Prop :=
  files.node? (files.place dir) = some .directory ∧
    ∃ bytes, files.find (dir.join n) = .ok (files.place dir ++ [n], .file bytes)

theorem find?_places_eq_some_iff : (places identifier paths).find? files.isFile = some p ↔
    ∃ dir n, FoundFirst files identifier paths dir n ∧ p = dir.join n := by
  simp only [places, List.find?_flatMap, List.findSome?_eq_some_iff, List.find?_map,
    Option.map_eq_some_iff, Option.map_eq_none_iff, List.find?_eq_some_iff_append,
    List.find?_eq_none, Function.comp_apply, Bool.not_eq_true', Bool.not_eq_true]
  constructor
  · rintro ⟨before, dir, after, split, ⟨n, ⟨isFile, names⟩, rfl⟩, earlier⟩
    exact ⟨dir, n, ⟨⟨before, after, split, earlier⟩, names, isFile⟩, rfl⟩
  · rintro ⟨dir, n, ⟨⟨before, after, split, earlier⟩, names, isFile⟩, rfl⟩
    exact ⟨before, dir, after, split, ⟨n, ⟨isFile, names⟩, rfl⟩, earlier⟩

/-- The file of a rule is the first of the candidates. -/
theorem resolve_eq_ok_iff : resolve files identifier paths = .ok p ↔
    ∃ dir n, FoundFirst files identifier paths dir n ∧ p = dir.join n := by
  rw [← find?_places_eq_some_iff, resolve]
  split
  · next found => rw [found, Except.ok.injEq, Option.some.injEq]
  · next absent => simp [absent]

theorem resolve_eq_error_iff {e : RunError} : resolve files identifier paths = .error e ↔
    (∀ dir ∈ paths, ∀ n ∈ candidates identifier, files.isFile (dir.join n) = false) ∧
      e = .ruleNotFound identifier (paths.map (shownPath files)) := by
  have absent_iff : (places identifier paths).find? files.isFile = none ↔
      ∀ dir ∈ paths, ∀ n ∈ candidates identifier, files.isFile (dir.join n) = false := by
    simp [places]
  rw [← absent_iff, resolve]
  split
  · next found => simp [found]
  · next absent => simp [absent, eq_comm]

/-- More directories at the end make no difference to what is found. -/
theorem FoundFirst.append (h : FoundFirst files identifier paths dir n) (more : List Path) :
    FoundFirst files identifier (paths ++ more) dir n := by
  obtain ⟨⟨before, after, rfl, earlier⟩, names, isFile⟩ := h
  exact ⟨⟨before, after ++ more, by simp, earlier⟩, names, isFile⟩

/-! ## Confinement -/

/-- The names made of an identifier are single steps of a path. -/
theorem proper_of_mem_candidates (h : Directive.IsIdentifier identifier.toList)
    (mem : n ∈ candidates identifier) : FileTree.Proper n := by
  have slashless : '/' ∉ identifier.toList := fun slash => by
    have word := h.2 '/' slash
    revert word
    decide
  simp only [candidates, tomlExtension, List.mem_cons, List.not_mem_nil, or_false] at mem
  have long : 2 < n.toList.length ∧ '/' ∉ n.toList := by
    rcases mem with rfl | rfl | rfl <;> simp [slashless]
  exact ⟨by grind [Path.leads], by grind, long.2⟩

/-- What is found under a proper name lies right in the directory. -/
theorem liesIn_of_isFile (proper : FileTree.Proper n) (h : files.isFile (dir.join n) = true) :
    LiesIn files dir n := by
  unfold FileTree.isFile at h
  split at h
  · next l bytes found =>
    have located := (FileTree.find_eq_ok.mp found).1
    have place : files.place dir ++ [n] = l := by
      rw [← FileTree.place_join proper, FileTree.place_of_locate located]
    subst place
    exact ⟨FileTree.directory_of_locate located, bytes, found⟩
  · cases h

end Rule

/-! ## Directives -/

namespace Execution

variable {s : Setting} {w : World} {d : Directive} {ruleFile : Path}

/-- A directive is executed with the rule that is loaded from the file that is found. -/
theorem execute_of_resolve (running : w.session.haltCode? s.file.path = none)
    (found : Rule.resolve w.files d.identifier s.options.rulePaths = .ok ruleFile) :
    (execute d).run s w = ((executeFrom ruleFile d).mapError (.within d.identifier ruleFile)).run s
      (w.noted (.executing s.file.path d.identifier)) := by
  rw [execute, Action.run_haltCode?_bind, running]
  simp only
  rw [Action.run_setting_bind, Action.run_record_bind, Action.run_world_bind, Action.run_bind,
    Action.run_ofExcept, World.files_noted, found]

theorem execute_of_no_rule {e : RunError} (running : w.session.haltCode? s.file.path = none)
    (absent : Rule.resolve w.files d.identifier s.options.rulePaths = .error e) :
    (execute d).run s w = (.error e, w.noted (.executing s.file.path d.identifier)) := by
  rw [execute, Action.run_haltCode?_bind, running]
  simp only
  rw [Action.run_setting_bind, Action.run_record_bind, Action.run_world_bind, Action.run_bind,
    Action.run_ofExcept, World.files_noted, absent]

/-- **Which file a rule is loaded from.** Whatever is written in a text, a directive extracted from it,
and each of its copies that are attached to files, is executed with the rule of a file that lies right
in one of the rule paths and has one of the three names made of the identifier. It is the first one,
paths before names, and more paths after those make no difference. Without such a file the directive
fails, with all the rule paths in order. -/
theorem execute_ruleFile {lines : List String} {headerOnly : Bool} {type : FileType}
    {ds : List Directive} (extracted : Directive.extract lines headerOnly type = .ok ds)
    {d : Directive}
    (mem : d ∈ ds ∨ ∃ file attached, Directive.attach ds file = .ok attached ∧ d ∈ attached)
    (s : Setting) {w : World} (running : w.session.haltCode? s.file.path = none) :
    (∃ dir ∈ s.options.rulePaths, ∃ n ∈ [d.identifier ++ ".yaml", d.identifier ++ ".toml",
        "arara-rule-" ++ d.identifier ++ ".yaml"],
      Rule.FoundFirst w.files d.identifier s.options.rulePaths dir n ∧ Rule.LiesIn w.files dir n ∧
        (∀ more, Rule.resolve w.files d.identifier (s.options.rulePaths ++ more) =
          .ok (dir.join n)) ∧
        (execute d).run s w =
          ((executeFrom (dir.join n) d).mapError (.within d.identifier (dir.join n))).run s
            (w.noted (.executing s.file.path d.identifier))) ∨
      (∀ dir ∈ s.options.rulePaths, ∀ n ∈ Rule.candidates d.identifier,
          w.files.isFile (dir.join n) = false) ∧
        (execute d).run s w =
          (.error (.ruleNotFound d.identifier (s.options.rulePaths.map (Rule.shownPath w.files))),
            w.noted (.executing s.file.path d.identifier)) := by
  have named : Directive.IsIdentifier d.identifier.toList := by
    -- an attached directive keeps the identifier that it was extracted with
    rcases mem with mem | ⟨file, attached, done, mem⟩
    · exact Directive.identifier_of_mem_extract extracted mem
    · obtain ⟨d₀, mem₀, same⟩ := Directive.identifier_of_mem_attach done mem
      rw [same]
      exact Directive.identifier_of_mem_extract extracted mem₀
  cases found : Rule.resolve w.files d.identifier s.options.rulePaths with
  | error e =>
    obtain ⟨absent, rfl⟩ := Rule.resolve_eq_error_iff.mp found
    exact .inr ⟨absent, execute_of_no_rule running found⟩
  | ok ruleFile =>
    obtain ⟨dir, n, first, rfl⟩ := Rule.resolve_eq_ok_iff.mp found
    have memDir : dir ∈ s.options.rulePaths := by
      obtain ⟨⟨before, after, split, -⟩, -⟩ := first
      simp [split]
    have memName : n ∈ Rule.candidates d.identifier := by
      obtain ⟨-, ⟨before, after, split, -⟩, -⟩ := first
      simp [split]
    have lies := Rule.liesIn_of_isFile (Rule.proper_of_mem_candidates named memName) first.2.2
    refine .inl ⟨dir, memDir, n, Rule.candidates_eq _ ▸ memName, first, lies, fun more => ?_, ?_⟩
    · exact Rule.resolve_eq_ok_iff.mpr ⟨dir, n, first.append more, rfl⟩
    · exact execute_of_resolve running found

/-- A world with two files of one rule. -/
def twoRuleFiles : World where
  files := ((FileTree.ofTexts [("greet.yaml", "")]).put ["rules"] .directory).put
    ["rules", "arara-rule-greet.yaml"] (.file .empty)

/-- The setting for a document at the root with three rule paths, the first of which does not exist. -/
def threePaths : Setting :=
  let s := Setting.ofDocument "doc.tex" true
  { s with options := { s.options with rulePaths := [⟨"/none"⟩, ⟨"/rules"⟩, ⟨"/"⟩] } }

/-- An earlier path wins over a better name. -/
theorem execute_ruleFile_greet :
    Directive.extract ["% arara: greet"] false .tex =
        .ok [{ identifier := "greet", lineNumbers := [1] }] ∧
      twoRuleFiles.session.haltCode? threePaths.file.path = none ∧
      ∃ dir n, Rule.LiesIn twoRuleFiles.files dir n ∧
        dir.join n = ⟨"/rules/arara-rule-greet.yaml"⟩ := by
  have extracted : Directive.extract ["% arara: greet"] false .tex =
      .ok [{ identifier := "greet", lineNumbers := [1] }] := by decide +kernel
  have found : Rule.resolve twoRuleFiles.files "greet" threePaths.options.rulePaths =
      .ok ⟨"/rules/arara-rule-greet.yaml"⟩ := by decide +kernel
  refine ⟨extracted, rfl, ?_⟩
  rcases execute_ruleFile extracted (.inl List.mem_cons_self) threePaths (w := twoRuleFiles) rfl with
    ⟨dir, -, n, -, first, lies, -, -⟩ | ⟨absent, -⟩
  · have found' := Rule.resolve_eq_ok_iff.mpr ⟨dir, n, first, rfl⟩
    exact ⟨dir, n, lies, Except.ok.inj (found'.symm.trans found)⟩
  · have missing := Rule.resolve_eq_error_iff.mpr ⟨absent, rfl⟩
    cases found.symm.trans missing

end Execution

end DirectiveRunner
