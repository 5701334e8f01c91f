import DirectiveRunner.Proofs.Execution
import DirectiveRunner.Proofs.Raise
import DirectiveRunner.Run.File
/-!
# Where the error of a dry run comes from

In a dry run an entry of a command is only shown, and counts as said by `Value.verdict?`. Everything
else is done as in any run, and fails as in any run. The relations `Command.Fails` to
`Execution.FilesFail` lead an error back to the step it comes from. There is one way for each kind of
step that may fail, and what comes before that step has to go on: the commands before it in a round,
the rounds before it, the directives before it in a file, and the files before it.
`Execution.executeFilesFrom_failsWith` says that these are exactly the errors of a dry run.
-/

namespace DirectiveRunner

open DirectiveRunner.Action (FailsWith)

/-- How an entry counts in a dry run. What is neither a truth value nor a command line cannot be
run. -/
def Value.verdict? : Value → Option Bool
  | .bool b => some b
  | .command _ => some true
  | _ => none

/-! ## Entries and commands -/

namespace Command

variable {s : Setting} {w w₁ w' : World} {e : RunError} {j : Job}

/-- An entry is shown in a dry run and counts as it does, or it cannot be run. -/
theorem runEntry_dry (dry : s.options.dryRun = true) (j : Job) (v : Value) (w : World) :
    (∃ b n, v.verdict? = some b ∧ (runEntry j v).run s w = (.ok b, w.noted (.shown n))) ∨
      v.verdict? = none ∧
        (runEntry j v).run s w = (.error (.unsupportedResultType v.typeName), w) := by
  cases v with
  | bool b =>
    refine .inl ⟨b, .dryBoolean j.heading b, rfl, ?_⟩
    rw [runEntry, Action.run_setting_bind, if_pos dry]
    rfl
  | command line =>
    refine .inl ⟨true, .dryCommand j.heading line
      (line.directory.getD s.options.workingDirectory), rfl, ?_⟩
    rw [runEntry, spawn, Action.run_setting_bind, if_pos dry]
    rfl
  | _ => exact .inr ⟨rfl, rfl⟩

theorem verdict?_of_runEntry (dry : s.options.dryRun = true) {v : Value} {b : Bool}
    (h : (runEntry j v).run s w = (.ok b, w')) : v.verdict? = some b := by
  rcases runEntry_dry dry j v w with ⟨b', n, verdict, ran⟩ | ⟨_, failed⟩
  · rw [ran] at h
    cases h
    exact verdict
  · rw [failed] at h
    cases h

theorem runEntry_failsWith (dry : s.options.dryRun = true) {v : Value} :
    (runEntry j v).FailsWith s w e ↔ v.verdict? = none ∧ e = .unsupportedResultType v.typeName := by
  unfold FailsWith
  rcases runEntry_dry dry j v w with ⟨b, n, verdict, ran⟩ | ⟨unknown, failed⟩
  · simp [verdict, ran]
  · simp [unknown, failed, eq_comm]

/-- Entries are run up to one that is neither a truth value nor a command line. -/
inductive EntriesFail (s : Setting) (j : Job) : World → List Value → RunError → Prop
  | unsupported {w : World} {v : Value} {vs : List Value} : v.verdict? = none →
    EntriesFail s j w (v :: vs) (.unsupportedResultType v.typeName)
  | later {w w₁ : World} {v : Value} {vs : List Value} {success : Bool} {e : RunError} :
    (runEntry j v).run s w = (.ok success, w₁) →
    ¬(success = false ∧ s.options.haltOnErrors = true) →
    w₁.session.haltCode? s.file.path = none →
    EntriesFail s j (w₁.noted (.judged s.file.path v success)) vs e →
    EntriesFail s j w (v :: vs) e

/-- A command fails: its template cannot be rendered, or one of its entries cannot be run. -/
inductive Fails (s : Setting) (j : Job) (scope : Bindings) (w : World) : RunError → Prop
  | rendering {e : EvalError} :
    (Template.render j.command.command scope).FailsWith s
      (w.noted (.rendering s.file.path j.command.command)) e →
    Fails s j scope w (.evaluation e)
  | entry {v : Value} {w₁ : World} {e : RunError} :
    (Template.render j.command.command scope).run s
      (w.noted (.rendering s.file.path j.command.command)) = (.ok v, w₁) →
    EntriesFail s j (w₁.noted (.rendered s.file.path v)) (entries v) e →
    Fails s j scope w e

theorem runEntries_failsWith (dry : s.options.dryRun = true) :
    ∀ {vs : List Value} {w : World}, (runEntries j vs).FailsWith s w e ↔ EntriesFail s j w vs e
  | [], w => by
    rw [runEntries, FailsWith.pure]
    exact ⟨False.elim, nofun⟩
  | v :: vs, w => by
    rw [runEntries, FailsWith.bind, runEntry_failsWith dry]
    simp only [FailsWith.setting_bind, FailsWith.record_bind]
    -- an entry that ends the command leaves no room for the error of a later one
    constructor
    · rintro (⟨unsupported, rfl⟩ | ⟨success, w₁, ran, others⟩)
      · exact .unsupported unsupported
      · split at others
        · simp at others
        · next goes =>
          rw [FailsWith.haltCode?_bind] at others
          split at others
          · simp at others
          · next running =>
            rw [FailsWith.bind_of_never fun _ => .pure _, runEntries_failsWith dry] at others
            exact .later ran (by simpa using goes) (by simpa using running) others
    · rintro (unsupported | ⟨ran, goes, running, others⟩)
      · exact .inl ⟨unsupported, rfl⟩
      · refine .inr ⟨_, _, ran, ?_⟩
        rw [if_neg (by simpa using goes), FailsWith.haltCode?_bind,
          if_neg (by simp [running]), FailsWith.bind_of_never fun _ => .pure _]
        exact (runEntries_failsWith dry).mpr others

theorem run_failsWith (dry : s.options.dryRun = true) {scope : Bindings} :
    (run j scope).FailsWith s w e ↔ Fails s j scope w e := by
  rw [run, FailsWith.setting_bind, FailsWith.record_bind, FailsWith.bind,
    FailsWith.mapError]
  simp only [FailsWith.record_bind, runEntries_failsWith dry]
  constructor
  · rintro (⟨e', failed, rfl⟩ | ⟨v, w₁, rendered, failed⟩)
    · exact .rendering failed
    · rcases Action.run_mapError_cases rendered with ⟨_, _, impossible⟩ | ⟨_, rendered, same⟩
      · cases impossible
      · cases same
        exact .entry rendered failed
  · rintro (failed | ⟨rendered, failed⟩)
    · exact .inl ⟨_, failed, rfl⟩
    · refine .inr ⟨_, _, ?_, failed⟩
      rw [Action.run_mapError, Evaluator.render_standard, rendered]
      rfl

end Command

namespace Execution

variable {s : Setting} {r : Rule} {d : Directive} {w w₁ w' : World} {e : RunError}

/-! ## Where the error of a run comes from -/

/-- A command fails after others that go on. -/
inductive CommandsFail (s : Setting) (r : Rule) (conditional : Conditional) (scope : Bindings) :
    World → Status → List RuleCommand → RunError → Prop
  | here {w : World} {st : Status} {c : RuleCommand} {cs : List RuleCommand} {e : RunError} :
    Command.Fails s ⟨r, c, conditional⟩ scope w e → CommandsFail s r conditional scope w st (c :: cs) e
  | later {w w₁ : World} {st st' : Status} {c : RuleCommand} {cs : List RuleCommand} {e : RunError} :
    (runCommand r conditional scope st c).run s w = (.ok (.goesOn st'), w₁) →
    CommandsFail s r conditional scope w₁ st' cs e → CommandsFail s r conditional scope w st (c :: cs) e

/-- A round fails: one of its commands does, or after them the question whether there is another
round. -/
inductive RoundFails (s : Setting) (r : Rule) (d : Directive) (scope : Bindings) (number : UInt32)
    (st : Status) (w : World) : RunError → Prop
  | command {e : RunError} :
    CommandsFail s r d.conditional scope (w.noted (.round number)) st r.commands e →
    RoundFails s r d scope number st w e
  | condition {st' : Status} {w₁ : World} {e : RunError} :
    (runCommands r d.conditional scope st r.commands).run s (w.noted (.round number)) =
      (.ok (.goesOn st'), w₁) →
    (Condition.repeats scope d.conditional).FailsWith s w₁ e → RoundFails s r d scope number st w e

/-- A round fails after others, or there are too many of them. -/
inductive RoundsFail (s : Setting) (r : Rule) (d : Directive) (scope : Bindings) :
    UInt32 → Status → Nat → World → RunError → Prop
  | here {number : UInt32} {st : Status} {left : Nat} {w : World} {e : RunError} :
    RoundFails s r d scope number st w e → RoundsFail s r d scope number st left w e
  | bound {number : UInt32} {st st' : Status} {w w₁ : World} :
    (round r d scope number st).run s w = (.ok (.goesOn st'), w₁) →
    RoundsFail s r d scope number st 0 w (.loopBoundExceeded d.identifier s.options.maxLoops)
  | later {number : UInt32} {st st' : Status} {left : Nat} {w w₁ : World} {e : RunError} :
    (round r d scope number st).run s w = (.ok (.goesOn st'), w₁) →
    RoundsFail s r d scope (number + 1) st' left w₁ e →
    RoundsFail s r d scope number st (left + 1) w e

/-- A rule fails: its arguments cannot be bound, the guard has no answer, or a round fails. -/
inductive RuleFails (s : Setting) (r : Rule) (d : Directive) (w : World) : RunError → Prop
  | binding {e : RunError} : (Binding.bind r d).FailsWith s w e → RuleFails s r d w e
  | condition {scope : Bindings} {w₁ : World} {e : RunError} :
    (Binding.bind r d).run s w = (.ok scope, w₁) →
    (Condition.allows scope d.conditional).FailsWith s w₁ e → RuleFails s r d w e
  | rounds {scope : Bindings} {w₁ w₂ : World} {e : RunError} :
    (Binding.bind r d).run s w = (.ok scope, w₁) →
    (Condition.allows scope d.conditional).run s w₁ = (.ok true, w₂) →
    w₂.session.haltCode? s.file.path = none →
    RoundsFail s r d scope 1 .processing (s.options.maxLoops.toNat - 1) w₂ e → RuleFails s r d w e

/-- A directive of a file that is not halted fails: its rule is not found, cannot be loaded, or
fails. -/
inductive DirectiveFails (s : Setting) (w : World) (d : Directive) : RunError → Prop
  | resolution {e : RunError} : w.session.haltCode? s.file.path = none →
    Rule.resolve w.files d.identifier s.options.rulePaths = .error e → DirectiveFails s w d e
  | loading {ruleFile : Path} {e : RunError} : w.session.haltCode? s.file.path = none →
    Rule.resolve w.files d.identifier s.options.rulePaths = .ok ruleFile →
    Rule.load w.files ruleFile d.identifier = .error e →
    DirectiveFails s w d (.within d.identifier ruleFile e)
  | rule {ruleFile : Path} {r : Rule} {e : RunError} : w.session.haltCode? s.file.path = none →
    Rule.resolve w.files d.identifier s.options.rulePaths = .ok ruleFile →
    Rule.load w.files ruleFile d.identifier = .ok r →
    RuleFails s r d (w.noted (.executing s.file.path d.identifier)) e →
    DirectiveFails s w d (.within d.identifier ruleFile e)

/-- A directive fails after others. -/
inductive DirectivesFail (s : Setting) : World → List Directive → RunError → Prop
  | here {w : World} {d : Directive} {ds : List Directive} {e : RunError} :
    DirectiveFails s w d e → DirectivesFail s w (d :: ds) e
  | later {w w₁ : World} {d : Directive} {ds : List Directive} {st : Status} {e : RunError} :
    (execute d).run s w = (.ok st, w₁) → w₁.session.haltCode? s.file.path = none →
    DirectivesFail s w₁ ds e → DirectivesFail s w (d :: ds) e

/-- The current file fails: its directives cannot be extracted, or one of them fails. -/
inductive FileFails (s : Setting) (w : World) : RunError → Prop
  | extraction {e : RunError} :
    s.file.directives w.files s.options.headerOnly = .error e → FileFails s w e
  | directive {ds : List Directive} {e : RunError} :
    s.file.directives w.files s.options.headerOnly = .ok ds →
    DirectivesFail s (w.noted (.shown (.processing s.file.name (s.file.size? w.files)))) ds e →
    FileFails s w e

/-- A file fails after others. -/
inductive FilesFail (s : Setting) : World → List ProjectFile → RunError → Prop
  | here {w : World} {f : ProjectFile} {fs : List ProjectFile} {e : RunError} :
    FileFails { s with file := f } w e → FilesFail s w (f :: fs) e
  | later {w w₁ : World} {f : ProjectFile} {fs : List ProjectFile} {st : Status} {e : RunError} :
    (executeFile f).run s w = (.ok st, w₁) → FilesFail s w₁ fs e → FilesFail s w (f :: fs) e

/-! ## Every error comes from one of the steps -/

/-- What comes after looking for a halt only fails if there is none. -/
theorem stopped?_bind_failsWith {α : Type} {f : Option Status → Action RunError α}
    (h : ∀ terminal, Action.Raises (fun _ => False) (f (some terminal))) :
    (stopped? >>= f).FailsWith s w e ↔
      w.session.haltCode? s.file.path = none ∧ (f none).FailsWith s w e := by
  unfold FailsWith
  rw [Action.run_bind, run_stopped?]
  cases w.session.haltCode? s.file.path with
  | none => simp
  | some code =>
    simp only [reduceCtorEq, false_and, iff_false]
    intro failed
    exact (h _).of_failsWith failed

theorem runCommands_failsWith (dry : s.options.dryRun = true) {conditional : Conditional}
    {scope : Bindings} :
    ∀ {cs : List RuleCommand} {st : Status} {w : World},
      (runCommands r conditional scope st cs).FailsWith s w e ↔
        CommandsFail s r conditional scope w st cs e
  | [], st, w => by
    rw [runCommands, FailsWith.pure]
    exact ⟨False.elim, nofun⟩
  | c :: cs, st, w => by
    have first : (runCommand r conditional scope st c).FailsWith s w e ↔
        Command.Fails s ⟨r, c, conditional⟩ scope w e := by
      -- how the directive goes on after a command is no matter of errors
      rw [runCommand, FailsWith.bind_of_never, Command.run_failsWith dry]
      intro success
      refine .bind (.record _) fun _ => .bind .setting fun s => ?_
      exact .ite (progress_raises st) (.ite haltAfterFailure_raises (progress_raises _))
    rw [runCommands, FailsWith.bind, first]
    constructor
    · rintro (failed | ⟨p, w₁, ran, others⟩)
      · exact .here failed
      · cases p with
        | ended terminal => simp at others
        | goesOn st' => exact .later ran ((runCommands_failsWith dry).mp others)
    · rintro (failed | ⟨ran, others⟩)
      · exact .inl failed
      · exact .inr ⟨_, _, ran, (runCommands_failsWith dry).mpr others⟩

theorem round_failsWith (dry : s.options.dryRun = true) {scope : Bindings} {number : UInt32}
    {st : Status} :
    (round r d scope number st).FailsWith s w e ↔ RoundFails s r d scope number st w e := by
  rw [round, FailsWith.record_bind, FailsWith.bind, runCommands_failsWith dry]
  constructor
  · rintro (failed | ⟨p, w₁, ran, others⟩)
    · exact .command failed
    · cases p with
      | ended terminal => simp at others
      | goesOn st' =>
        -- once the question is answered, nothing in the round fails any more
        refine .condition ran ((FailsWith.bind_of_never fun again => ?_).mp others)
        exact .bind stopped?_raises fun x => by cases x <;> exact .pure _
  · rintro (failed | ⟨ran, failed⟩)
    · exact .inl failed
    · exact .inr ⟨_, _, ran, FailsWith.bind.mpr (.inl failed)⟩

theorem rounds_failsWith (dry : s.options.dryRun = true) {scope : Bindings} (left : Nat) :
    ∀ {number : UInt32} {st : Status} {w : World},
      (rounds r d scope number st left).FailsWith s w e ↔
        RoundsFail s r d scope number st left w e := by
  induction left with
  | zero =>
    intro number st w
    rw [rounds, FailsWith.bind, round_failsWith dry]
    constructor
    · rintro (failed | ⟨p, w₁, ran, others⟩)
      · exact .here failed
      · cases p with
        | ended terminal => simp at others
        -- no round is left, and the bound is what fails
        | goesOn st' =>
          obtain rfl : RunError.loopBoundExceeded d.identifier s.options.maxLoops = e := by
            simpa using others
          exact .bound ran
    · rintro (failed | ran)
      · exact .inl failed
      · exact .inr ⟨_, _, ran, FailsWith.fail.mpr rfl⟩
  | succ left ih =>
    intro number st w
    rw [rounds, FailsWith.bind, round_failsWith dry]
    constructor
    · rintro (failed | ⟨p, w₁, ran, others⟩)
      · exact .here failed
      · cases p with
        | ended terminal => simp at others
        | goesOn st' => exact .later ran (ih.mp others)
    · rintro (failed | _ | ⟨ran, others⟩)
      · exact .inl failed
      · exact .inr ⟨_, _, ran, ih.mpr others⟩

theorem executeRule_failsWith (dry : s.options.dryRun = true) :
    (executeRule r d).FailsWith s w e ↔ RuleFails s r d w e := by
  rw [executeRule, FailsWith.bind]
  constructor
  · rintro (failed | ⟨scope, w₁, bound, others⟩)
    · exact .binding failed
    · rcases FailsWith.bind.mp others with failed | ⟨allowed, w₂, asked, others⟩
      · exact .condition bound failed
      · rw [stopped?_bind_failsWith fun terminal => .pure terminal] at others
        obtain ⟨running, others⟩ := others
        cases allowed with
        | false => simp at others
        | true => exact .rounds bound asked running ((rounds_failsWith dry _).mp others)
  · rintro (failed | ⟨bound, failed⟩ | ⟨bound, asked, running, failed⟩)
    · exact .inl failed
    · exact .inr ⟨_, _, bound, FailsWith.bind.mpr (.inl failed)⟩
    · refine .inr ⟨_, _, bound, FailsWith.bind.mpr (.inr ⟨true, _, asked, ?_⟩)⟩
      rw [stopped?_bind_failsWith fun terminal => .pure terminal]
      exact ⟨running, (rounds_failsWith dry _).mpr failed⟩

theorem execute_failsWith (dry : s.options.dryRun = true) :
    (execute d).FailsWith s w e ↔ DirectiveFails s w d e := by
  rw [execute, FailsWith.haltCode?_bind]
  cases code? : w.session.haltCode? s.file.path with
  | some code =>
    rw [FailsWith.pure]
    constructor
    · exact False.elim
    · rintro (⟨running, _⟩ | ⟨running, _⟩ | ⟨running, _⟩) <;> simp [code?] at running
  | none =>
    simp only [executeFrom, FailsWith.setting_bind, FailsWith.record_bind,
      FailsWith.world_bind, FailsWith.ofExcept_bind, FailsWith.mapError,
      World.files_noted, executeRule_failsWith dry]
    constructor
    · rintro (missing | ⟨ruleFile, found, e', broken | ⟨r, loaded, failed⟩, rfl⟩)
      · exact .resolution code? missing
      · exact .loading code? found broken
      · exact .rule code? found loaded failed
    · rintro (⟨_, missing⟩ | ⟨_, found, broken⟩ | ⟨_, found, loaded, failed⟩)
      · exact .inl missing
      · exact .inr ⟨_, found, _, .inl broken, rfl⟩
      · exact .inr ⟨_, found, _, .inr ⟨_, loaded, failed⟩, rfl⟩

theorem executeAll_failsWith (dry : s.options.dryRun = true) :
    ∀ {ds : List Directive} {st : Status} {w : World},
      (executeAll st ds).FailsWith s w e ↔ DirectivesFail s w ds e
  | [], st, w => by
    rw [executeAll, FailsWith.pure]
    exact ⟨False.elim, nofun⟩
  | d :: ds, st, w => by
    rw [executeAll, FailsWith.bind, execute_failsWith dry]
    simp only [FailsWith.haltCode?_bind]
    constructor
    · rintro (failed | ⟨st', w₁, ran, others⟩)
      · exact .here failed
      · split at others
        · simp at others
        · next running =>
          exact .later ran (by simpa using running) ((executeAll_failsWith dry).mp others)
    · rintro (failed | ⟨ran, running, others⟩)
      · exact .inl failed
      · refine .inr ⟨_, _, ran, ?_⟩
        rw [if_neg (by simp [running])]
        exact (executeAll_failsWith dry).mpr others

theorem executeCurrent_failsWith (dry : s.options.dryRun = true) :
    executeCurrent.FailsWith s w e ↔ FileFails s w e := by
  simp only [executeCurrent, FailsWith.setting_bind, FailsWith.world_bind,
    FailsWith.ofExcept_bind, FailsWith.report_bind]
  constructor
  · rintro (unread | ⟨ds, extracted, failed⟩)
    · exact .extraction unread
    · cases ds with
      | nil => cases failed
      | cons d ds => exact .directive extracted ((executeAll_failsWith dry).mp failed)
  · rintro (unread | ⟨extracted, failed⟩)
    · exact .inl unread
    · refine .inr ⟨_, extracted, ?_⟩
      -- there is a directive that fails, so the file has directives
      cases failed with
      | here failed => exact (executeAll_failsWith dry).mpr (.here failed)
      | later ran running others => exact (executeAll_failsWith dry).mpr (.later ran running others)

theorem executeFilesFrom_failsWith (dry : s.options.dryRun = true) :
    ∀ {fs : List ProjectFile} {st : Status} {w : World},
      (executeFilesFrom st fs).FailsWith s w e ↔ FilesFail s w fs e
  | [], st, w => by
    rw [executeFilesFrom, FailsWith.pure]
    exact ⟨False.elim, nofun⟩
  | f :: fs, st, w => by
    have first : (executeFile f).FailsWith s w e ↔ FileFails { s with file := f } w e := by
      rw [executeFile, FailsWith.withSetting]
      exact executeCurrent_failsWith dry
    rw [executeFilesFrom, FailsWith.bind, first]
    constructor
    · rintro (failed | ⟨st', w₁, ran, others⟩)
      · exact .here failed
      · exact .later ran ((executeFilesFrom_failsWith dry).mp others)
    · rintro (failed | ⟨ran, others⟩)
      · exact .inl failed
      · exact .inr ⟨_, _, ran, (executeFilesFrom_failsWith dry).mpr others⟩

end Execution

end DirectiveRunner
