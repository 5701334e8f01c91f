import DirectiveRunner.Proofs.Execution
import DirectiveRunner.Proofs.Route
import DirectiveRunner.Rule.Load
import Mathlib.Data.List.Nodup
/-!
# Which rules are accepted

A file can hold a rule (`Rule.Holds`) that is turned down all the same. A rule has to have the name
that was asked for, a command, and arguments of which none is reserved and no two have one name
(`Rule.Acceptable`). When it falls short of that, the error says where it does so first
(`Rule.FirstProblem`): the arguments are gone through with the names of the earlier ones in hand, so
the one that is reported is the first that offends against those before it (`Rule.Offends`).
-/

namespace DirectiveRunner.Rule

variable {files : FileTree} {path : Path} {identifier text : String} {r : Rule}
  {seen earlier : List String} {a : Argument} {as : List Argument} {problem : RuleProblem}

/-! ## What a file holds -/

/-- A text is made of blanks, the mark and a rest that begins at the end of a line. -/
def Marked (cs rest : List Char) : Prop :=
  (∃ blanks, Text.allBlank blanks = true ∧ cs = blanks ++ "!config".toList ++ rest) ∧
    (rest = [] ∨ rest.head? = some '\n' ∨ rest.head? = some '\r')

/-- The part of a text that is YAML: what comes after the mark, or all of it if it has none. -/
inductive YamlPart (cs : List Char) : List Char → Prop
  | marked {rest} : Marked cs rest → YamlPart cs rest
  | unmarked : (∀ rest, ¬Marked cs rest) → YamlPart cs cs

/-- The document of a rule file is the rule `r`, in the language that goes with its extension. -/
inductive Holds (path : Path) (text : String) (r : Rule) : Prop
  | toml {fields} : path.extension? = some "toml" → Toml.read? text = some fields →
      FromToml.rule? fields = some r → Holds path text r
  | yaml {part document} : path.extension? ≠ some "toml" → YamlPart text.toList part →
      Yaml.load? part = some (some document) → FromYaml.rule? document = some r → Holds path text r

theorem marked_iff {cs rest : List Char} : Marked cs rest ↔
    Text.afterStart? FromYaml.configTag (Text.trimStart cs) = some rest ∧
      (rest = [] ∨ rest.head? = some '\n' ∨ rest.head? = some '\r') := by
  refine and_congr_left fun _ => ?_
  rw [Text.afterStart?_eq_some_iff]
  constructor
  · rintro ⟨blanks, blank, rfl⟩
    rw [List.append_assoc, Text.trimStart_append_of_allBlank blank]
    exact Text.trimStart_eq_self rfl
  · rintro trimmed
    refine ⟨cs.takeWhile Text.isBlank, List.all_takeWhile, ?_⟩
    rw [List.append_assoc]
    exact (List.takeWhile_append_dropWhile.symm).trans (congrArg _ trimmed)

theorem withoutTag_of_marked {cs rest : List Char} (h : Marked cs rest) :
    FromYaml.withoutTag cs = rest := by
  obtain ⟨after, ended⟩ := marked_iff.mp h
  rw [FromYaml.withoutTag, after]
  cases rest with
  | nil => rfl
  | cons c rest => exact if_pos (by simpa using ended)

theorem withoutTag_of_unmarked {cs : List Char} (h : ∀ rest, ¬Marked cs rest) :
    FromYaml.withoutTag cs = cs := by
  unfold FromYaml.withoutTag
  split
  · next after => exact absurd (marked_iff.mpr ⟨after, .inl rfl⟩) (h _)
  · next c rest after =>
    refine if_neg fun ends => h (c :: rest) (marked_iff.mpr ⟨after, .inr ?_⟩)
    simpa using ends
  · rfl

theorem withoutTag_eq_iff {cs part : List Char} :
    FromYaml.withoutTag cs = part ↔ YamlPart cs part := by
  constructor
  · rintro rfl
    by_cases h : ∃ rest, Marked cs rest
    · obtain ⟨rest, marked⟩ := h
      rw [withoutTag_of_marked marked]
      exact .marked marked
    · have unmarked := not_exists.mp h
      rw [withoutTag_of_unmarked unmarked]
      exact .unmarked unmarked
  · rintro (marked | unmarked)
    · exact withoutTag_of_marked marked
    · exact withoutTag_of_unmarked unmarked

theorem fromYaml_eq_some_iff : FromYaml.read? text = some r ↔
    ∃ part document, YamlPart text.toList part ∧ Yaml.load? part = some (some document) ∧
      FromYaml.rule? document = some r := by
  refine Option.bind_eq_some_iff.trans ?_
  constructor
  · rintro ⟨_ | document, parsed, fits⟩
    · cases fits
    · exact ⟨_, document, withoutTag_eq_iff.mp rfl, parsed, fits⟩
  · rintro ⟨part, document, is, parsed, fits⟩
    rw [← withoutTag_eq_iff.mpr is] at parsed
    exact ⟨some document, parsed, fits⟩

/-- What is read is what the file holds. -/
theorem read?_eq_some_iff : read? path text = some r ↔ Holds path text r := by
  unfold read?
  constructor
  · rintro read
    split at read
    · next toml =>
      obtain ⟨fields, parsed, fits⟩ := Option.bind_eq_some_iff.mp read
      exact .toml toml parsed fits
    · next yaml =>
      obtain ⟨part, document, is, parsed, fits⟩ := fromYaml_eq_some_iff.mp read
      exact .yaml yaml is parsed fits
  · rintro (⟨toml, parsed, fits⟩ | ⟨yaml, is, parsed, fits⟩)
    · rw [if_pos (show path.extension? = some tomlExtension from toml), FromToml.read?, parsed]
      exact fits
    · rw [if_neg (show path.extension? ≠ some tomlExtension from yaml)]
      exact fromYaml_eq_some_iff.mpr ⟨_, _, is, parsed, fits⟩

/-! ## What is accepted -/

/-- No argument is reserved, and no two have one name. -/
def Distinct (as : List Argument) : Prop :=
  (∀ a ∈ as, a.identifier ≠ "reference") ∧ (as.map (·.identifier)).Nodup

/-- What makes a rule one that can be loaded under a name. -/
structure Acceptable (r : Rule) (identifier : String) : Prop where
  /-- It is the rule that was asked for. -/
  named : r.identifier = identifier
  commands : r.commands ≠ []
  /-- Its arguments can be told apart, from one another and from the reference. -/
  arguments : Distinct r.arguments

/-- An argument is reserved, or else has the name of an earlier one. -/
inductive Offends (earlier : List String) (a : Argument) : RuleProblem → Prop
  | reserved : a.identifier = "reference" → Offends earlier a .reservedArgument
  | twice : a.identifier ≠ "reference" → a.identifier ∈ earlier →
      Offends earlier a (.duplicateArgument a.identifier)

/-- The first thing that is wrong with a rule that was asked for under a name. -/
inductive FirstProblem (r : Rule) (identifier : String) : RuleProblem → Prop
  | named : r.identifier ≠ identifier →
      FirstProblem r identifier (.wrongIdentifier r.identifier identifier)
  | commands : r.identifier = identifier → r.commands = [] → FirstProblem r identifier .noCommands
  | argument {before a after problem} : r.identifier = identifier → r.commands ≠ [] →
      r.arguments = before ++ a :: after → Distinct before →
      Offends (before.map (·.identifier)) a problem → FirstProblem r identifier problem

theorem argumentProblem?_eq_none_iff_distinct : argumentProblem? [] as = none ↔ Distinct as := by
  rw [argumentProblem?_eq_none_iff]
  constructor
  · rintro ⟨unreserved, -, apart⟩
    exact ⟨unreserved, apart⟩
  · rintro ⟨unreserved, apart⟩
    exact ⟨unreserved, fun _ _ => List.not_mem_nil, apart⟩

theorem problem?_eq_none_iff_acceptable :
    r.problem? identifier = none ↔ Acceptable r identifier := by
  rw [problem?_eq_none_iff, argumentProblem?_eq_none_iff_distinct]
  constructor
  · rintro ⟨named, commands, distinct⟩
    exact ⟨named, commands, distinct⟩
  · rintro ⟨named, commands, distinct⟩
    exact ⟨named, commands, distinct⟩

/-! ## What is wrong first -/

theorem Offends.congr {earlier' : List String} (h : Offends earlier a problem)
    (same : ∀ n, n ∈ earlier ↔ n ∈ earlier') : Offends earlier' a problem := by
  cases h with
  | reserved reserved => exact .reserved reserved
  | twice unreserved old => exact .twice unreserved ((same _).mp old)

theorem argumentProblem?_cons_eq_some_iff : argumentProblem? seen (a :: as) = some problem ↔
    Offends seen a problem ∨ (a.identifier ≠ "reference" ∧ a.identifier ∉ seen ∧
      argumentProblem? (a.identifier :: seen) as = some problem) := by
  rw [argumentProblem?]
  constructor
  · rintro h
    split at h
    · next reserved =>
      cases h
      exact .inl (.reserved reserved)
    · next unreserved =>
      split at h
      · next old =>
        cases h
        exact .inl (.twice unreserved old)
      · next new => exact .inr ⟨unreserved, new, h⟩
  · rintro ((reserved | ⟨unreserved, old⟩) | ⟨unreserved, new, later⟩)
    · exact if_pos reserved
    · exact (if_neg unreserved).trans (if_pos old)
    · exact (if_neg unreserved).trans ((if_neg new).trans later)

/-- The problem found is that of the first argument that offends against those before it. -/
theorem argumentProblem?_eq_some_iff : argumentProblem? seen as = some problem ↔
    ∃ before a after, as = before ++ a :: after ∧ argumentProblem? seen before = none ∧
      Offends (before.map (·.identifier) ++ seen) a problem := by
  induction as generalizing seen with
  | nil => simp [argumentProblem?]
  | cons b as ih =>
    -- the name of `b` is looked for first among the earlier ones or last
    have moved (before : List Argument) (n : String) :
        n ∈ before.map (·.identifier) ++ b.identifier :: seen ↔
          n ∈ (b :: before).map (·.identifier) ++ seen := by
      simp [or_left_comm]
    rw [argumentProblem?_cons_eq_some_iff, ih]
    constructor
    · rintro (offends | ⟨unreserved, new, before, a, after, rfl, sound, offends⟩)
      · exact ⟨[], b, as, rfl, rfl, offends⟩
      · exact ⟨b :: before, a, after, rfl,
          argumentProblem?_cons_eq_none_iff.mpr ⟨unreserved, new, sound⟩,
          offends.congr (moved before)⟩
    · rintro ⟨_ | ⟨b', before⟩, a, after, split, sound, offends⟩
      · cases split
        exact .inl offends
      · cases split
        obtain ⟨unreserved, new, sound⟩ := argumentProblem?_cons_eq_none_iff.mp sound
        exact .inr ⟨unreserved, new, before, a, after, rfl, sound,
          offends.congr fun n => (moved before n).symm⟩

theorem problem?_eq_some_iff : r.problem? identifier = some problem ↔
    FirstProblem r identifier problem := by
  unfold problem?
  constructor
  · rintro h
    split at h
    · next other =>
      cases h
      exact .named other
    · next named =>
      replace named := Decidable.of_not_not named
      split at h
      · next empty =>
        cases h
        exact .commands named (List.isEmpty_iff.mp empty)
      · next commands =>
        obtain ⟨before, a, after, split, sound, offends⟩ := argumentProblem?_eq_some_iff.mp h
        rw [List.append_nil] at offends
        exact .argument named (mt List.isEmpty_iff.mpr commands) split
          (argumentProblem?_eq_none_iff_distinct.mp sound) offends
  · rintro (other | ⟨named, empty⟩ | ⟨named, commands, split, sound, offends⟩)
    · exact if_pos other
    · rw [if_neg (not_not_intro named), if_pos (List.isEmpty_iff.mpr empty)]
    · rw [if_neg (not_not_intro named), if_neg (mt List.isEmpty_iff.mp commands)]
      refine argumentProblem?_eq_some_iff.mpr
        ⟨_, _, _, split, argumentProblem?_eq_none_iff_distinct.mpr sound, ?_⟩
      rwa [List.append_nil]

/-! ## Loading -/

theorem load_of_holds (readable : files.readText path = .ok text) (holds : Holds path text r) :
    load files path identifier = r.check path identifier := by
  rw [load, readable]
  simp only [read?_eq_some_iff.mpr holds]

theorem check_eq_error_iff : r.check path identifier = .error (.ruleParse path problem) ↔
    FirstProblem r identifier problem := by
  rw [← problem?_eq_some_iff, check]
  cases r.problem? identifier <;> simp

/-- A file that can be read and holds a rule is loaded as that rule just if the rule is acceptable under
the name that was asked for. Otherwise it is turned down, with the first thing that is wrong with the
rule. -/
theorem load_outcome (readable : files.readText path = .ok text) (holds : Holds path text r) :
    (load files path identifier = .ok r ↔ Acceptable r identifier) ∧
      (¬Acceptable r identifier →
        ∃ problem, load files path identifier = .error (.ruleParse path problem)) ∧
      ∀ problem, load files path identifier = .error (.ruleParse path problem) ↔
        FirstProblem r identifier problem := by
  rw [load_of_holds readable holds]
  refine ⟨?_, fun unacceptable => ?_, fun _ => check_eq_error_iff⟩
  · rw [check_eq_ok_iff, problem?_eq_none_iff_acceptable]
    exact and_iff_right rfl
  · cases wrong : r.problem? identifier with
    | none => exact absurd (problem?_eq_none_iff_acceptable.mp wrong) unacceptable
    | some problem => exact ⟨problem, check_eq_error_iff.mpr (problem?_eq_some_iff.mp wrong)⟩

/-- The lines of a rule file below the mark. Two arguments have one name, and then one is reserved. -/
def twiceBody : String :=
  "\nidentifier: twice\ncommands:\n- command: ls\narguments:\n" ++
    "- identifier: size\n- identifier: size\n- identifier: reference\n"

/-- The rule of that file. -/
def twice : Rule where
  identifier := "twice"
  arguments := [{ identifier := "size" }, { identifier := "size" }, { identifier := "reference" }]
  commands := [{ command := "ls" }]

theorem load_outcome_twice :
    let files := FileTree.ofTexts [("twice.yaml", "!config" ++ twiceBody)]
    let path : Path := ⟨"/twice.yaml"⟩
    files.readText path = .ok ("!config" ++ twiceBody) ∧ Holds path ("!config" ++ twiceBody) twice ∧
      load files path "twice" = .error (.ruleParse path (.duplicateArgument "size")) := by
  intro files path
  have readable : files.readText path = .ok ("!config" ++ twiceBody) :=
    FileTree.readText_put (by simp) (by decide +kernel)
  have holds : Holds path ("!config" ++ twiceBody) twice := read?_eq_some_iff.mp (by decide +kernel)
  refine ⟨readable, holds, ((load_outcome readable holds).2.2 _).mpr ?_⟩
  -- the second argument comes after one of its name
  have split : twice.arguments = [{ identifier := "size" }] ++ { identifier := "size" } ::
      [{ identifier := "reference" }] := rfl
  exact .argument rfl (by decide) split ⟨by decide, by decide⟩ (.twice (by decide) (by decide))

end DirectiveRunner.Rule
