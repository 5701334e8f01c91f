import DirectiveRunner.Proofs.Raise
import DirectiveRunner.Proofs.Rounds
import DirectiveRunner.Proofs.Spelling
/-!
# The context of an error

An error of a directive tells which rule it belongs to, unless there is no such rule. The context is
added in one place, around everything that is done with the rule, so two things have to be known: none
of the errors that come up there has a context already or is passed on without one (`RunError.isOfRule`,
which is carried through all rounds by `Execution.rounds_raises`), and the file of a rule always has a
parent to be named (`Rule.exists_parent_of_resolve`). `Execution.execute_failure` puts them together.
-/

namespace DirectiveRunner

open DirectiveRunner.Action (Raises FailsWith)

/-! ## Where the file of a rule lies -/

namespace Path

variable {p : Path}

/-- A segment that leads somewhere stands for a component. -/
theorem exists_component_of_leads {s : List Char} (mem : s ∈ p.segments) (leading : leads s = true) :
    ∃ c, (s, some c) ∈ p.readSegments := by
  have component : componentOf? s = some (componentOf s) := by rw [componentOf?_eq, if_pos leading]
  unfold readSegments
  split
  · next first others absolute segments =>
    rw [segments] at mem
    rcases List.mem_cons.mp mem with rfl | later
    · have same : firstComponentOf? s = componentOf? s := by
        unfold firstComponentOf?
        split
        · cases leading
        · rfl
      exact ⟨componentOf s, by simp [same, component]⟩
    · exact ⟨componentOf s, List.mem_cons_of_mem _ (List.mem_map.mpr ⟨s, later, by rw [component]⟩)⟩
  · exact ⟨componentOf s, List.mem_map.mpr ⟨s, mem, by rw [component]⟩⟩

/-- A path that leads somewhere has a parent. -/
theorem exists_parent_of_moves (h : p.moves ≠ []) : ∃ q, p.parent? = some q := by
  obtain ⟨s, moving⟩ := List.exists_mem_of_ne_nil _ h
  have leading := leads_of_mem_moves moving
  rw [moves_eq_segments] at moving
  obtain ⟨c, read⟩ := exists_component_of_leads (List.mem_filter.mp moving).1 leading
  unfold parent?
  split
  · next none =>
    have stands := List.dropWhile_eq_nil_iff.mp none (s, some c) (List.mem_reverse.mpr read)
    cases stands
  · exact ⟨_, rfl⟩

theorem mem_chars_join {c : Char} {r : String} (h : c ∈ r.toList) : c ∈ (p.join r).chars := by
  unfold join
  split
  · exact h
  · split <;> simp [chars, h]

/-- A path that is joined with a name that is not made of slashes and dots only has a parent. -/
theorem exists_parent_join {c : Char} {r : String} (h : c ∈ r.toList) (slash : c ≠ '/') (dot : c ≠ '.') :
    ∃ q, (p.join r).parent? = some q := by
  rcases mem_chars_cases (mem_chars_join (p := p) h) with same | same | ⟨s, moving, _⟩
  · exact absurd same slash
  · exact absurd same dot
  · exact exists_parent_of_moves (List.ne_nil_of_mem moving)

end Path

namespace Rule

/-- The file that is found for a rule has a parent, whatever the rule is called. -/
theorem exists_parent_of_resolve {files : FileTree} {identifier : String} {paths : List Path}
    {ruleFile : Path} (h : resolve files identifier paths = .ok ruleFile) :
    ∃ location, ruleFile.parent? = some location := by
  unfold resolve at h
  split at h
  · next found =>
    cases h
    obtain ⟨dir, -, listed⟩ := List.mem_flatMap.mp (List.mem_of_find?_eq_some found)
    obtain ⟨n, candidate, rfl⟩ := List.mem_map.mp listed
    -- the extensions of rules share a letter
    have letter : 'l' ∈ n.toList := by
      simp only [candidates, tomlExtension, List.mem_cons, List.not_mem_nil, or_false] at candidate
      rcases candidate with rfl | rfl | rfl <;> simp
    exact Path.exists_parent_join letter (by decide) (by decide)
  · cases h

end Rule

/-! ## Errors of a rule -/

namespace RunError

/-- Whether an error is one that can come up while a rule is loaded and carried out. -/
def isOfRule : RunError → Prop
  | ruleParse _ _ | unknownArgument _ | missingRequiredArgument _ | argumentEvaluation _ _ _
  | evaluation _ | loopBoundExceeded _ _ | nonBooleanExitCheck _ | unsupportedResultType _
  | processTimeout _ _ | processSpawn _ _ => True
  | ruleNotFound _ _ | directiveParse _ _ | fileNotFound _ | io _ _ | inRule _ _ _ => False

theorem isOfRule_of_isLocal {e : RunError} (h : e.isLocal) : e.isOfRule := by
  cases e <;> trivial

theorem isOfRule_of_isAsked {e : RunError} (h : e.isAsked) : e.isOfRule :=
  isOfRule_of_isLocal (isLocal_of_isAsked h)

/-- An error of a rule is put into the rule. -/
theorem within_of_isOfRule {e : RunError} (h : e.isOfRule) {identifier : String}
    {ruleFile location : Path} (parent : ruleFile.parent? = some location) :
    e.within identifier ruleFile = .inRule identifier location e := by
  cases e <;> first | exact h.elim | simp [within, parent]

end RunError

namespace Execution

variable {r : Rule} {d : Directive} {scope : Bindings}

theorem round_raises (r : Rule) (d : Directive) (scope : Bindings) (number : UInt32) (st : Status) :
    Raises RunError.isOfRule (round r d scope number st) := by
  have commands := (runCommands_raises r d.conditional scope r.commands st).mono
    fun _ => RunError.isOfRule_of_isLocal
  have condition := (Condition.repeats_raises scope d.conditional).mono
    fun _ => RunError.isOfRule_of_isAsked
  refine .bind (.record _) fun _ => .bind commands fun p => ?_
  cases p with
  | ended terminal => exact .pure _
  | goesOn st =>
    refine .bind condition fun again => .bind stopped?_raises fun terminal => ?_
    cases terminal <;> exact .pure _

/-- In whichever round a directive fails, the error is one of the rule. -/
theorem rounds_raises (r : Rule) (d : Directive) (scope : Bindings) (left : Nat) (number : UInt32)
    (st : Status) : Raises RunError.isOfRule (rounds r d scope number st left) := by
  refine rounds_of_round (fun number st next => ?_) (fun _ => .pure _) ?_ left number st
  · exact (round_raises r d scope number st).bind
  · exact .bind .setting fun s => .fail trivial

theorem executeRule_raises (r : Rule) (d : Directive) :
    Raises RunError.isOfRule (executeRule r d) := by
  refine .bind ((Binding.bind_raises r d).mono fun _ => RunError.isOfRule_of_isAsked) fun scope => ?_
  have condition := (Condition.allows_raises scope d.conditional).mono
    fun _ => RunError.isOfRule_of_isAsked
  refine .bind condition fun allowed => .bind stopped?_raises fun terminal => ?_
  cases terminal with
  | some terminal => exact .pure _
  | none => exact .ite (.bind .setting fun s => rounds_raises r d scope _ _ _) (.pure _)

theorem executeFrom_raises (ruleFile : Path) (d : Directive) :
    Raises RunError.isOfRule (executeFrom ruleFile d) := by
  refine .bind .world fun w => ?_
  cases loaded : Rule.load w.files ruleFile d.identifier with
  | ok r => exact executeRule_raises r d
  | error e =>
    obtain ⟨problem, rfl⟩ := Rule.load_error loaded
    exact .fail trivial

/-- **The context of an error.** A directive that fails either asks for a rule that is not found, which
is said without a context, or it fails with an error of a rule in the context of that rule: with the
identifier of the directive and the directory of the file that is found for it. No error has a second
context, and none of the other kinds ever comes out of a directive. -/
theorem execute_failure {s : Setting} {w : World} {d : Directive} {e : RunError}
    (failed : (execute d).FailsWith s w e) :
    (Rule.resolve w.files d.identifier s.options.rulePaths = .error e ∧
      ∃ paths, e = .ruleNotFound d.identifier paths) ∨
    ∃ ruleFile location source,
      Rule.resolve w.files d.identifier s.options.rulePaths = .ok ruleFile ∧
        ruleFile.parent? = some location ∧ source.isOfRule ∧
        e = .inRule d.identifier location source := by
  rw [execute, FailsWith.haltCode?_bind] at failed
  split at failed
  · rw [FailsWith.pure] at failed
    exact failed.elim
  · rw [FailsWith.setting_bind, FailsWith.record_bind, FailsWith.world_bind, FailsWith.ofExcept_bind,
      World.files_noted] at failed
    rcases failed with absent | ⟨ruleFile, found, failed⟩
    · exact .inl ⟨absent, _, Rule.resolve_error absent⟩
    · obtain ⟨source, inside, rfl⟩ := FailsWith.mapError.mp failed
      have ofRule := (executeFrom_raises ruleFile d).of_failsWith inside
      obtain ⟨location, parent⟩ := Rule.exists_parent_of_resolve found
      exact .inr ⟨ruleFile, location, source, found, parent, ofRule,
        RunError.within_of_isOfRule ofRule parent⟩

/-- The question whether there is a second round has no answer, which is said in the context of the
rule that has gone through the first one. -/
theorem execute_failure_condition :
    let d : Directive := { identifier := "check", conditional := .while "1 / 0 == 1" }
    (execute d).FailsWith twoRounds failingCheck
        (.inRule "check" ⟨"/"⟩ (.evaluation (.wrongType "division by zero"))) ∧
      ∃ ruleFile, Rule.resolve failingCheck.files "check" [⟨"/"⟩] = .ok ruleFile ∧
        ruleFile.parent? = some ⟨"/"⟩ := by
  intro d
  have failed : (execute d).FailsWith twoRounds failingCheck
      (.inRule "check" ⟨"/"⟩ (.evaluation (.wrongType "division by zero"))) :=
    eq_error_of (by decide +kernel)
  refine ⟨failed, ?_⟩
  rcases execute_failure failed with ⟨-, _, impossible⟩ | ⟨ruleFile, _, _, found, parent, -, same⟩
  · cases impossible
  · cases same
    exact ⟨ruleFile, found, parent⟩

end Execution

end DirectiveRunner
