import DirectiveRunner.Files.Tree
import DirectiveRunner.Rule.FromToml
import DirectiveRunner.Rule.FromYaml
import DirectiveRunner.Run.Error
/-!
# Finding and loading rules

The file of a rule is looked for in the rule paths in order, in each under three names
(`candidates`). A rule that is loaded has the identifier that was asked for, commands, and arguments
with names of their own, none of them reserved (`check`).
-/

namespace DirectiveRunner.Rule

def tomlExtension : String := "toml"

/-- The names a rule file may have. -/
def candidates (identifier : String) : List String :=
  [identifier ++ ".yaml", identifier ++ "." ++ tomlExtension, "arara-rule-" ++ identifier ++ ".yaml"]

/-- Where the file of a rule may be. -/
def places (identifier : String) (paths : List Path) : List Path :=
  paths.flatMap fun dir => (candidates identifier).map dir.join

/-- The path of a rule directory as it is shown. -/
def shownPath (files : FileTree) (p : Path) : Path :=
  match files.canonical p with
  | .ok c => c
  | .error _ => if p.chars.isEmpty then p else Path.absoluteFrom files.base p

def resolve (files : FileTree) (identifier : String) (paths : List Path) :
    Except RunError Path :=
  match (places identifier paths).find? files.isFile with
  | some p => .ok p
  | none => .error (.ruleNotFound identifier (paths.map (shownPath files)))

/-- What is wrong with the first argument that is reserved, or named as an earlier one; `seen` holds
the names of the earlier ones. -/
def argumentProblem? (seen : List String) : List Argument → Option RuleProblem
  | [] => none
  | a :: as =>
    if a.identifier = referenceKey then some .reservedArgument
    else if a.identifier ∈ seen then some (.duplicateArgument a.identifier)
    else argumentProblem? (a.identifier :: seen) as

/-- What is wrong with a rule that was asked for under a name. -/
def problem? (r : Rule) (identifier : String) : Option RuleProblem :=
  if r.identifier ≠ identifier then some (.wrongIdentifier r.identifier identifier)
  else if r.commands.isEmpty then some .noCommands
  else argumentProblem? [] r.arguments

def check (r : Rule) (path : Path) (identifier : String) : Except RunError Rule :=
  match r.problem? identifier with
  | none => .ok r
  | some p => .error (.ruleParse path p)

/-- Reads a rule, in TOML if the extension says so and in YAML otherwise. -/
def read? (path : Path) (text : String) : Option Rule :=
  if path.extension? = some tomlExtension then FromToml.read? text else FromYaml.read? text

def load (files : FileTree) (path : Path) (identifier : String) : Except RunError Rule :=
  match files.readText path with
  | .error e => .error (.ruleParse path (.unreadable e))
  | .ok text =>
    match read? path text with
    | none => .error (.ruleParse path .notARule)
    | some r => r.check path identifier

theorem check_eq_ok_iff {r r' : Rule} {path : Path} {identifier : String} :
    r'.check path identifier = .ok r ↔ r' = r ∧ r'.problem? identifier = none := by
  unfold check
  cases r'.problem? identifier <;> simp

/-- What is loaded is the rule of a file that can be read, and nothing is wrong with it. -/
theorem load_eq_ok_iff {files : FileTree} {path : Path} {identifier : String} {r : Rule} :
    load files path identifier = .ok r ↔
      ∃ text, files.readText path = .ok text ∧ read? path text = some r ∧
        r.problem? identifier = none := by
  unfold load
  cases files.readText path with
  | error => simp
  | ok text =>
    cases read : read? path text with
    | none => simp [read]
    | some r' =>
      simp only [check_eq_ok_iff, Except.ok.injEq, exists_eq_left', read, Option.some.injEq]
      exact and_congr_right fun same => same ▸ Iff.rfl

theorem problem?_of_load {files : FileTree} {path : Path} {identifier : String} {r : Rule}
    (h : load files path identifier = .ok r) : r.problem? identifier = none := by
  obtain ⟨_, -, -, sound⟩ := load_eq_ok_iff.mp h
  exact sound

theorem problem?_eq_none_iff {r : Rule} {identifier : String} :
    r.problem? identifier = none ↔
      r.identifier = identifier ∧ r.commands ≠ [] ∧ argumentProblem? [] r.arguments = none := by
  unfold problem?
  by_cases named : r.identifier = identifier
  · by_cases empty : r.commands = [] <;> simp [named, empty]
  · simp [named]

theorem argumentProblem?_cons_eq_none_iff {seen : List String} {a : Argument} {as : List Argument} :
    argumentProblem? seen (a :: as) = none ↔
      a.identifier ≠ referenceKey ∧ a.identifier ∉ seen ∧
        argumentProblem? (a.identifier :: seen) as = none := by
  rw [argumentProblem?]
  by_cases reserved : a.identifier = referenceKey
  · simp [reserved]
  · by_cases old : a.identifier ∈ seen <;> simp [reserved, old]

theorem argumentProblem?_eq_none_iff {seen : List String} {as : List Argument} :
    argumentProblem? seen as = none ↔
      (∀ a ∈ as, a.identifier ≠ referenceKey) ∧ (∀ a ∈ as, a.identifier ∉ seen) ∧
        (as.map (·.identifier)).Nodup := by
  induction as generalizing seen with
  | nil => simp [argumentProblem?]
  | cons a as ih =>
    -- the name of `a` is among the seen ones when the others are looked at
    have apart : (∀ b ∈ as, b.identifier ∉ a.identifier :: seen) ↔
        a.identifier ∉ as.map (·.identifier) ∧ ∀ b ∈ as, b.identifier ∉ seen := by
      simp [List.mem_cons, not_or, forall_and]
    rw [argumentProblem?_cons_eq_none_iff, ih, apart, List.map_cons, List.nodup_cons,
      List.forall_mem_cons, List.forall_mem_cons]
    constructor
    · rintro ⟨unreserved, new, others, ⟨alone, unseen⟩, distinct⟩
      exact ⟨⟨unreserved, others⟩, ⟨new, unseen⟩, alone, distinct⟩
    · rintro ⟨⟨unreserved, others⟩, ⟨new, unseen⟩, alone, distinct⟩
      exact ⟨unreserved, new, others, ⟨alone, unseen⟩, distinct⟩

end DirectiveRunner.Rule
