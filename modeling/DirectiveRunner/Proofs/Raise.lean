import DirectiveRunner.Proofs.Grouping
import DirectiveRunner.Proofs.Journal
import DirectiveRunner.Run.File
/-!
# Which errors actions raise

Errors are told apart by where they come from. The parts of a rule, its arguments, its condition and
its commands, only raise errors of their own (`RunError.isLocal`); that there were too many rounds,
that the rule cannot be found or read, and which rule an error belongs to is said around them.

`Action.Raises` goes through the steps of an action like `Action.Keeps` does, with the error in the
place of the world. `Action.FailsWith` is about one run, and its lemmas lead the error of an action back
to the step that it comes from.
-/

namespace DirectiveRunner

namespace RunError

/-- Whether an error is one of an argument or a condition. -/
def isAsked : RunError → Prop
  | unknownArgument _ | missingRequiredArgument _ | argumentEvaluation _ _ _ | evaluation _ => True
  | _ => False

/-- Whether an error is one of an argument, a condition or a command of a rule. -/
def isLocal : RunError → Prop
  | unknownArgument _ | missingRequiredArgument _ | argumentEvaluation _ _ _ | evaluation _
  | nonBooleanExitCheck _ | unsupportedResultType _ | processTimeout _ _ | processSpawn _ _ => True
  | ruleNotFound _ _ | ruleParse _ _ | loopBoundExceeded _ _ | directiveParse _ _ | fileNotFound _
  | io _ _ | inRule _ _ _ => False

/-- Whether an error is one of a process: it cannot be started, or was stopped. -/
def isProcess : RunError → Prop
  | processTimeout _ _ | processSpawn _ _ => True
  | _ => False

/-- Whether an error is one of an exit expression: it cannot be evaluated, or yields no truth value. -/
def isCheck : RunError → Prop
  | evaluation _ | nonBooleanExitCheck _ => True
  | _ => False

theorem isLocal_of_isCheck {e : RunError} (h : e.isCheck) : e.isLocal := by
  cases e <;> trivial

theorem not_isCheck_of_isProcess {e : RunError} (h : e.isProcess) : ¬e.isCheck := by
  intro check
  cases e <;> first | exact h | exact check

theorem isLocal_of_isAsked {e : RunError} (h : e.isAsked) : e.isLocal := by
  cases e <;> trivial

theorem isLocal_of_isProcess {e : RunError} (h : e.isProcess) : e.isLocal := by
  cases e <;> trivial

/-- Putting an error into a rule leaves its root as it is. -/
theorem root_within (e : RunError) (identifier : String) (ruleFile : Path) :
    (within identifier ruleFile e).root = e.root := by
  cases e <;> rfl

theorem root_of_isProcess {e : RunError} (h : e.isProcess) : e.root = e := by
  cases e <;> first | rfl | exact h.elim

/-- A local error is the root of what it becomes in a rule. -/
theorem root_within_of_isLocal {e : RunError} (h : e.isLocal) (identifier : String)
    (ruleFile : Path) : (within identifier ruleFile e).root = e := by
  cases e <;> first | rfl | exact h.elim

end RunError

namespace Action

variable {ε ε' α β : Type} {P : ε → Prop}

/-- In whatever setting and world, if the action fails, `P` holds of the error. -/
def Raises (P : ε → Prop) (a : Action ε α) : Prop :=
  ∀ s w e w', a.run s w = (.error e, w') → P e

namespace Raises

theorem of_ok {a : Action ε α} (h : ∀ s w, ∃ x w', a.run s w = (.ok x, w')) : Raises P a := by
  intro s w e w' failed
  obtain ⟨x, w₁, yields⟩ := h s w
  rw [yields] at failed
  cases failed

theorem mono {Q : ε → Prop} {a : Action ε α} (h : Raises P a) (sub : ∀ e, P e → Q e) : Raises Q a :=
  fun s w e w' failed => sub e (h s w e w' failed)

theorem pure (x : α) : Raises P (Pure.pure x : Action ε α) := of_ok fun _ _ => ⟨_, _, rfl⟩

theorem setting : Raises P (Action.setting : Action ε Setting) := of_ok fun _ _ => ⟨_, _, rfl⟩

theorem world : Raises P (Action.world : Action ε World) := of_ok fun _ _ => ⟨_, _, rfl⟩

theorem haltCode? : Raises P (Action.haltCode? : Action ε (Option Int64)) :=
  of_ok fun _ _ => ⟨_, _, rfl⟩

theorem modify (f : World → World) : Raises P (Action.modify f : Action ε Unit) :=
  of_ok fun _ _ => ⟨_, _, rfl⟩

theorem record (e : Event) : Raises P (Action.record e : Action ε Unit) := modify _

theorem halt (code : Int64) : Raises P (Action.halt code : Action ε Unit) :=
  of_ok fun _ _ => ⟨_, _, rfl⟩

theorem fail {e : ε} (h : P e) : Raises P (Action.fail e : Action ε α) := by
  intro s w e' w' failed
  cases failed
  exact h

theorem bind {a : Action ε α} {f : α → Action ε β} (ha : Raises P a) (hf : ∀ x, Raises P (f x)) :
    Raises P (a >>= f) := by
  intro s w e w' failed
  rcases run_bind_cases failed with ⟨_, first, same⟩ | ⟨x, w₁, _, second⟩
  · cases same
    exact ha s w e w' first
  · exact hf x s w₁ e w' second

theorem ite {c : Prop} [Decidable c] {a b : Action ε α} (ha : Raises P a) (hb : Raises P b) :
    Raises P (if c then a else b) := by
  split <;> assumption

theorem onFailure {a : Action ε α} (ha : Raises P a) (closing : Action ε Unit) :
    Raises P (a.onFailure closing) := by
  intro s w e w' failed
  rcases run_onFailure_cases failed with ⟨_, w₁, first, same, _⟩ | ⟨_, _, impossible⟩
  · cases same
    exact ha s w e w₁ first
  · cases impossible

/-- The error of an action in another form. -/
theorem mapError {f : ε' → ε} (h : ∀ e, P (f e)) (a : Action ε' α) : Raises P (a.mapError f) := by
  intro s w e w' failed
  rcases run_mapError_cases failed with ⟨e', _, same⟩ | ⟨_, _, impossible⟩
  · cases same
    exact h e'
  · cases impossible

end Raises

/-! ## Where an error comes from -/

variable {s : Setting} {w : World} {e : ε}

/-- In a setting and a world, the action fails with an error. -/
def FailsWith (s : Setting) (w : World) (a : Action ε α) (e : ε) : Prop := (a.run s w).1 = .error e

theorem Raises.of_failsWith {a : Action ε α} (h : Raises P a) (failed : FailsWith s w a e) : P e :=
  h s w e _ (Prod.ext failed rfl)

namespace FailsWith

@[simp] theorem pure (x : α) : FailsWith s w (Pure.pure x : Action ε α) e ↔ False := by
  simp [FailsWith]

@[simp] theorem fail {e' : ε} : FailsWith s w (Action.fail e' : Action ε α) e ↔ e' = e := by
  simp [FailsWith]

/-- Two actions in a row fail if the first does, or the second where the first has led. -/
theorem bind {a : Action ε α} {f : α → Action ε β} :
    FailsWith s w (a >>= f) e ↔ FailsWith s w a e ∨
      ∃ x w₁, a.run s w = (.ok x, w₁) ∧ FailsWith s w₁ (f x) e := by
  unfold FailsWith
  rw [run_bind]
  rcases a.run s w with ⟨_ | x, w₁⟩
  · simp
  · simp only [reduceCtorEq, false_or, Prod.mk.injEq, Except.ok.injEq]
    constructor
    · intro second
      exact ⟨x, w₁, ⟨rfl, rfl⟩, second⟩
    · rintro ⟨_, _, ⟨rfl, rfl⟩, second⟩
      exact second

/-- What never fails adds no error. -/
theorem bind_of_never {a : Action ε α} {f : α → Action ε β}
    (h : ∀ x, Raises (fun _ => False) (f x)) : FailsWith s w (a >>= f) e ↔ FailsWith s w a e := by
  rw [bind]
  constructor
  · rintro (first | ⟨x, w₁, _, second⟩)
    · exact first
    · exact ((h x).of_failsWith second).elim
  · exact .inl

@[simp] theorem record_bind {ev : Event} {f : Unit → Action ε β} :
    FailsWith s w (record ev >>= f) e ↔ FailsWith s (w.noted ev) (f ()) e := .rfl

@[simp] theorem report_bind {n : Notice} {f : Unit → Action ε β} :
    FailsWith s w (report n >>= f) e ↔ FailsWith s (w.noted (.shown n)) (f ()) e := .rfl

@[simp] theorem setting_bind {f : Setting → Action ε β} :
    FailsWith s w (setting >>= f) e ↔ FailsWith s w (f s) e := .rfl

@[simp] theorem world_bind {f : World → Action ε β} :
    FailsWith s w (world >>= f) e ↔ FailsWith s w (f w) e := .rfl

@[simp] theorem haltCode?_bind {f : Option Int64 → Action ε β} :
    FailsWith s w (haltCode? >>= f) e ↔ FailsWith s w (f (w.session.haltCode? s.file.path)) e := .rfl

@[simp] theorem ofExcept_bind {x : Except ε α} {f : α → Action ε β} :
    FailsWith s w (ofExcept x >>= f) e ↔ x = .error e ∨ ∃ y, x = .ok y ∧ FailsWith s w (f y) e := by
  cases x <;> simp [FailsWith, run_bind]

@[simp] theorem mapError {f : ε' → ε} {a : Action ε' α} :
    FailsWith s w (a.mapError f) e ↔ ∃ e', FailsWith s w a e' ∧ f e' = e := by
  simp only [FailsWith, run_mapError]
  cases (a.run s w).1 <;> simp [Except.mapError]

@[simp] theorem withSetting {f : Setting → Setting} {a : Action ε α} :
    FailsWith s w (a.withSetting f) e ↔ FailsWith (f s) w a e := .rfl

end FailsWith

end Action

open DirectiveRunner.Action (Raises)

/-! ## The parts of a rule -/

theorem Binding.argumentValue_raises (d : Directive) (a : Argument) :
    Raises RunError.isAsked (argumentValue d a) := by
  refine .ite (.fail trivial) ?_
  split
  · exact .mapError (fun _ => trivial) _
  · exact .mapError (fun _ => trivial) _
  · exact .pure _

theorem Binding.bindArguments_raises (d : Directive) :
    ∀ (as : List Argument) (bound : Bindings), Raises RunError.isAsked (bindArguments d bound as)
  | [], _ => .pure _
  | a :: as, _ => .bind (argumentValue_raises d a) fun _ => bindArguments_raises d as _

theorem Binding.bind_raises (r : Rule) (d : Directive) : Raises RunError.isAsked (bind r d) := by
  refine .bind (.record _) fun _ => ?_
  split
  · exact bindArguments_raises d r.arguments _
  · exact .fail trivial

theorem Condition.holds_raises (expression : String) (scope : Bindings) :
    Raises RunError.isAsked (holds expression scope) := by
  refine .bind (.record _) fun _ => .bind (.mapError (fun _ => trivial) _) fun v => ?_
  split
  · exact .pure _
  · exact .fail trivial

theorem Condition.allows_raises (scope : Bindings) :
    ∀ c, Raises RunError.isAsked (allows scope c)
  | .onlyIf e => holds_raises e scope
  | .unless e => .bind (holds_raises e scope) fun _ => .pure _
  | .none | .while _ | .until _ => .pure _

theorem Condition.repeats_raises (scope : Bindings) :
    ∀ c, Raises RunError.isAsked (repeats scope c)
  | .while e => holds_raises e scope
  | .until e => .bind (holds_raises e scope) fun _ => .pure _
  | .none | .onlyIf _ | .unless _ => .pure _

namespace Command

theorem judge_raises (j : Job) (code : Int64) : Raises RunError.isCheck (judge j code) := by
  refine .bind (.record _) fun _ => .bind (.mapError (fun _ => trivial) _) fun verdict => ?_
  split
  · exact .pure _
  · exact .fail trivial

theorem exitCode_raises (line : CommandLine) :
    ∀ ending, Raises RunError.isProcess (exitCode line ending)
  | .exited _ => .pure _
  | .notStarted _ => .fail trivial
  | .killed => .bind .setting fun _ => .fail trivial

theorem conclude_raises (line : CommandLine) (outcome : Outcome) :
    Raises RunError.isProcess (conclude line outcome) := by
  have judged := exitCode_raises line outcome.ending
  refine .bind .setting fun _ => .bind (.modify _) fun _ => ?_
  exact .ite (.bind (.record _) fun _ => judged) judged

theorem launch_raises (line : CommandLine) (directory : Path) :
    Raises RunError.isProcess (launch line directory) := by
  refine .bind .setting fun s => ?_
  split
  · exact .fail trivial
  · exact .bind (.record _) fun _ => .bind .world fun _ => conclude_raises line _

theorem spawn_raises (j : Job) (line : CommandLine) : Raises RunError.isLocal (spawn j line) := by
  refine .bind .setting fun s => .ite (.bind (.record _) fun _ => .pure _) ?_
  have launched := (launch_raises line (line.directory.getD s.options.workingDirectory)).mono
    fun _ => RunError.isLocal_of_isProcess
  refine .bind (.record _) fun _ => .bind (.onFailure launched _) fun code => ?_
  have judged := (judge_raises j code).mono fun _ => RunError.isLocal_of_isCheck
  exact .bind judged fun _ => .bind (.record _) fun _ => .pure _

theorem runEntry_raises (j : Job) : ∀ v, Raises RunError.isLocal (runEntry j v)
  | .bool _ => by
    refine .bind .setting fun s => .ite (.bind (.record _) fun _ => .pure _) ?_
    exact .bind (.record _) fun _ => .bind (.record _) fun _ => .pure _
  | .command line => spawn_raises j line
  | .null | .int _ | .str _ | .list _ | .map _ => .fail trivial

theorem runEntries_raises (j : Job) : ∀ es, Raises RunError.isLocal (runEntries j es)
  | [] => .pure _
  | e :: es => by
    refine .bind (runEntry_raises j e) fun success => .bind .setting fun s => ?_
    refine .bind (.record _) fun _ => .ite (.pure _) ?_
    refine .bind .haltCode? fun code => .ite (.pure _) ?_
    exact .bind (runEntries_raises j es) fun _ => .pure _

theorem run_raises (j : Job) (scope : Bindings) : Raises RunError.isLocal (run j scope) := by
  refine .bind .setting fun s => .bind (.record _) fun _ => ?_
  refine .bind (.mapError (fun _ => trivial) _) fun v => .bind (.record _) fun _ => ?_
  exact runEntries_raises j _

end Command

namespace Execution

/-! To look for a halt, or to halt the file, raises no error at all. -/

theorem stopped?_raises {P : RunError → Prop} : Raises P stopped? := by
  refine .bind .haltCode? fun code => ?_
  split
  · exact .pure _
  · exact .bind (.record _) fun _ => .pure _

theorem progress_raises {P : RunError → Prop} (st : Status) : Raises P (progress st) := by
  refine .bind stopped?_raises fun x => ?_
  split <;> exact .pure _

theorem haltAfterFailure_raises {P : RunError → Prop} : Raises P haltAfterFailure :=
  .bind (.halt _) fun _ => .pure _

theorem runCommand_raises (r : Rule) (conditional : Conditional) (scope : Bindings) (st : Status)
    (command : RuleCommand) :
    Raises RunError.isLocal (runCommand r conditional scope st command) := by
  refine .bind (Command.run_raises _ scope) fun success => .bind (.record _) fun _ => ?_
  exact .bind .setting fun s =>
    .ite (progress_raises st) (.ite haltAfterFailure_raises (progress_raises _))

theorem runCommands_raises (r : Rule) (conditional : Conditional) (scope : Bindings) :
    ∀ (commands : List RuleCommand) (st : Status),
      Raises RunError.isLocal (runCommands r conditional scope st commands)
  | [], _ => .pure _
  | command :: rest, st => by
    refine .bind (runCommand_raises r conditional scope st command) fun p => ?_
    split
    · exact runCommands_raises r conditional scope rest _
    · exact .pure _

end Execution

/-! ## The file of a rule -/

/-- A rule that cannot be found is reported as such. -/
theorem Rule.resolve_error {files : FileTree} {identifier : String} {paths : List Path}
    {e : RunError} (h : resolve files identifier paths = .error e) :
    e = .ruleNotFound identifier (paths.map (shownPath files)) := by
  unfold resolve at h
  split at h
  · cases h
  · cases h
    rfl

/-- A rule that cannot be loaded is reported with its file. -/
theorem Rule.load_error {files : FileTree} {path : Path} {identifier : String} {e : RunError}
    (h : load files path identifier = .error e) : ∃ problem, e = .ruleParse path problem := by
  unfold load at h
  split at h
  · cases h
    exact ⟨_, rfl⟩
  · split at h
    · cases h
      exact ⟨_, rfl⟩
    · unfold check at h
      split at h
      · cases h
      · cases h
        exact ⟨_, rfl⟩

/-! ## The directives of a file -/

theorem bind_eq_error_iff {ε α β : Type} {x : Except ε α} {f : α → Except ε β} {e : ε} :
    x >>= f = .error e ↔ x = .error e ∨ ∃ a, x = .ok a ∧ f a = .error e := by
  cases x <;> simp [bind, Except.bind]

theorem Directive.gather_error {headerOnly : Bool} {ls : List LineKind} {number : Nat}
    {open? : Option Raw} {e : RunError} (h : gather headerOnly number open? ls = .error e) :
    ∃ line, e = .directiveParse line .orphan := by
  induction ls generalizing number open? with
  | nil => cases h
  | cons l ls ih =>
    cases l with
    | code =>
      rw [gather] at h
      split at h
      · cases h
      · exact ih h
    | comment => exact ih h
    | start text =>
      rcases bind_eq_error_iff.mp h with later | ⟨rs, _, impossible⟩
      · exact ih later
      · cases impossible
    | more text =>
      cases open? with
      | none =>
        cases h
        exact ⟨_, rfl⟩
      | some r => exact ih h

theorem Directive.extract_error {lines : List String} {headerOnly : Bool} {type : FileType}
    {e : RunError} (h : extract lines headerOnly type = .error e) :
    ∃ line problem, e = .directiveParse line problem := by
  rcases bind_eq_error_iff.mp h with orphan | ⟨raw, _, unread⟩
  · obtain ⟨line, rfl⟩ := gather_error orphan
    exact ⟨line, _, rfl⟩
  · obtain ⟨_, r, _, _, _, failed⟩ := exists_of_mapM_eq_error unread
    exact ⟨r.line, line_of_ofRaw_eq_error failed⟩

theorem Directive.attach_error {ds : List Directive} {file : Path} {e : RunError}
    (h : attach ds file = .error e) : ∃ line problem, e = .directiveParse line problem := by
  rcases bind_eq_error_iff.mp h with unlisted | ⟨_, _, impossible⟩
  · obtain ⟨_, d, _, _, _, failed⟩ := exists_of_mapM_eq_error unlisted
    unfold copies at failed
    split at failed
    · cases failed
    · dsimp only at failed
      split at failed
      · cases failed
      · cases failed
        exact ⟨_, _, rfl⟩
  · cases impossible

/-- The directives of a file are not read because the file is not, or because one of them is none. -/
theorem ProjectFile.directives_error {files : FileTree} {headerOnly : Bool} {f : ProjectFile}
    {e : RunError} (h : f.directives files headerOnly = .error e) :
    (∃ reason, e = .io f.path reason) ∨ ∃ line problem, e = .directiveParse line problem := by
  rcases bind_eq_error_iff.mp h with unread | ⟨lines, _, h⟩
  · unfold readLines at unread
    split at unread
    · cases unread
    · cases unread
      exact .inl ⟨_, rfl⟩
  · rcases bind_eq_error_iff.mp h with failed | ⟨ds, _, failed⟩
    · exact .inr (Directive.extract_error failed)
    · exact .inr (Directive.attach_error failed)

end DirectiveRunner
