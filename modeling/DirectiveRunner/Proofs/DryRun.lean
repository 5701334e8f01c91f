import DirectiveRunner.Proofs.File
import DirectiveRunner.Proofs.Origin
/-!
# Dry runs

In a dry run the entries of commands are shown instead of being run: a command line counts as
successful, a truth value counts as it is, and no exit expression is looked at. So the only processes
are those that expressions start, and no error speaks of a process or of its exit code
(`executeFiles_dry`).
-/

namespace DirectiveRunner

/-- Whether an error speaks of a process or of its exit code. -/
def RunError.ofProcess : RunError → Prop
  | processSpawn _ _ | processTimeout _ _ | nonBooleanExitCheck _ => True
  | _ => False

theorem RunError.not_ofProcess_root_of_isAsked {e : RunError} (h : e.isAsked) :
    ¬e.root.ofProcess := by
  cases e <;> first | exact id | exact h.elim

namespace Event

/-- Whether an event may happen in a dry run. -/
def isDry : Event → Prop
  | .launched .command _ _ _ | .judging _ => False
  | .judged _ v success => v.verdict? = some success
  | _ => True

def isLaunch : Event → Bool
  | .launched _ _ _ _ => true
  | _ => false

theorem isDry_of_byExpression {file : Path} {e : Event} (h : e.byExpression file) : e.isDry := by
  unfold byExpression at h
  split at h <;> simp_all [isDry]

theorem isDry_of_isProgress {e : Event} (h : e.isProgress) : e.isDry := by
  unfold isProgress at h
  split at h <;> simp_all [isDry]

end Event

/-! ## Processes of expressions -/

/-- Only one helper starts processes. -/
theorem Helper.call_launches_nothing {s : Setting} {name : String} (h : name ≠ starter)
    (args : List Value) :
    Action.Keeps (World.Does fun e => e.isLaunch = false) s (call name args) := by
  have kept : KeptByHelpers (World.Does fun e => e.isLaunch = false) s :=
    keptByHelpers_does (fun _ => rfl) (fun _ _ => rfl) fun _ _ => rfl
  exact call_keeps_of kept.toKeptByOtherHelpers (fun _ => kept.stored)
    (fun same => absurd same h) args

theorem Helper.keep_launches_nothing {s : Setting} {names : List String} (h : starter ∉ names) :
    Keep (World.Does fun e => e.isLaunch = false) s names := by
  intro name mem
  apply call_launches_nothing
  rintro rfl
  exact h mem

/-! ## Commands -/

namespace Command

variable {s : Setting}

theorem keptByEntries_dry (dry : s.options.dryRun = true) :
    KeptByEntries (World.Does Event.isDry) s :=
  keptByEntries_does (fun _ => Event.isDry_of_byExpression) (fun _ => trivial) fun wet => by
    simp [dry] at wet

theorem run_isDry (dry : s.options.dryRun = true) (j : Job) (scope : Bindings) :
    Action.Keeps (World.Does Event.isDry) s (run j scope) := by
  apply run_keeps (keptByEntries_dry dry)
  · intro wet
    simp [dry] at wet
  · intro w w' v b ran
    exact .noted (verdict?_of_runEntry dry ran) nofun
  · intro w t
    exact .noted trivial nofun
  · intro w v
    exact .noted trivial nofun

end Command

namespace Execution

variable {s : Setting} {r : Rule} {d : Directive} {w w' : World} {e : RunError}

/-! ## No error speaks of a process -/

theorem not_ofProcess_of_entriesFail {j : Command.Job} {vs : List Value}
    (h : Command.EntriesFail s j w vs e) : ¬e.root.ofProcess := by
  induction h with
  | unsupported => exact id
  | later _ _ _ _ ih => exact ih

theorem not_ofProcess_of_commandFails {j : Command.Job} {scope : Bindings}
    (h : Command.Fails s j scope w e) : ¬e.root.ofProcess := by
  cases h with
  | rendering => exact id
  | entry _ failed => exact not_ofProcess_of_entriesFail failed

theorem not_ofProcess_of_commandsFail {conditional : Conditional} {scope : Bindings} {st : Status}
    {cs : List RuleCommand} (h : CommandsFail s r conditional scope w st cs e) :
    ¬e.root.ofProcess := by
  induction h with
  | here failed => exact not_ofProcess_of_commandFails failed
  | later _ _ ih => exact ih

theorem not_ofProcess_of_roundsFail {scope : Bindings} {number : UInt32} {st : Status} {left : Nat}
    (h : RoundsFail s r d scope number st left w e) : ¬e.root.ofProcess := by
  induction h with
  | here failed =>
    cases failed with
    | command failed => exact not_ofProcess_of_commandsFail failed
    | condition _ failed =>
      exact RunError.not_ofProcess_root_of_isAsked ((Condition.repeats_raises _ _).of_failsWith failed)
  | bound => exact id
  | later _ _ ih => exact ih

theorem not_ofProcess_of_ruleFails (h : RuleFails s r d w e) : ¬e.root.ofProcess := by
  cases h with
  | binding failed =>
    exact RunError.not_ofProcess_root_of_isAsked ((Binding.bind_raises r d).of_failsWith failed)
  | condition _ failed =>
    exact RunError.not_ofProcess_root_of_isAsked ((Condition.allows_raises _ _).of_failsWith failed)
  | rounds _ _ _ failed => exact not_ofProcess_of_roundsFail failed

theorem not_ofProcess_of_directiveFails (h : DirectiveFails s w d e) : ¬e.root.ofProcess := by
  cases h with
  | resolution _ missing =>
    rw [Rule.resolve_error missing]
    exact id
  | loading _ _ broken =>
    obtain ⟨problem, rfl⟩ := Rule.load_error broken
    exact id
  | rule _ _ _ failed =>
    rw [RunError.root_within]
    exact not_ofProcess_of_ruleFails failed

theorem not_ofProcess_of_directivesFail {ds : List Directive} (h : DirectivesFail s w ds e) :
    ¬e.root.ofProcess := by
  induction h with
  | here failed => exact not_ofProcess_of_directiveFails failed
  | later _ _ _ ih => exact ih

theorem not_ofProcess_of_filesFail {fs : List ProjectFile} (h : FilesFail s w fs e) :
    ¬e.root.ofProcess := by
  induction h with
  | here failed =>
    cases failed with
    | extraction unread =>
      rcases ProjectFile.directives_error unread with ⟨_, rfl⟩ | ⟨_, _, rfl⟩ <;> exact id
    | directive _ failed => exact not_ofProcess_of_directivesFail failed
  | later _ _ ih => exact ih

/-! ## Whole dry runs -/

theorem execute_isDry (dry : s.options.dryRun = true) (d : Directive) :
    Action.Keeps (World.Does Event.isDry) s (execute d) := by
  have kept : KeptByDirectives (World.Does Event.isDry) s :=
    keptByDirectives_of (fun _ => Event.isDry_of_byExpression) (fun _ => Event.isDry_of_isProgress)
      (Command.run_isDry dry)
  exact execute_keeps kept (fun w _ => .noted trivial nofun) d

theorem executeFiles_isDry (dry : s.options.dryRun = true) (files : List ProjectFile) :
    Action.Keeps (World.Does Event.isDry) s (executeFiles files) := by
  refine executeFilesFrom_keeps (fun w n => .noted trivial nofun) (fun f d => ?_) files _
  exact execute_isDry (s := { s with file := f }) dry d

/-- In a dry run a command fails exactly if one of its entries is false. -/
theorem run_dry_success (dry : s.options.dryRun = true) {j : Command.Job} {scope : Bindings}
    {b : Bool} (h : (Command.run j scope).run s w = (.ok b, w')) :
    ∃ events, w.Leads events w' ∧ (b = false ↔ ∃ f, .judged f (.bool false) false ∈ events) := by
  obtain ⟨events, lead, rfl⟩ := Command.run_success h
  obtain ⟨events', lead', kinds⟩ := (Command.run_isDry dry j scope).of_run h
  obtain rfl := lead.unique lead'
  refine ⟨events, lead, ?_⟩
  rw [Bool.not_eq_false', List.any_eq_true]
  constructor
  · rintro ⟨ev, mem, failed⟩
    cases ev with
    | judged f v success =>
      obtain rfl : success = false := by simpa [Event.failsEntry] using failed
      have verdict : v.verdict? = some false := kinds _ mem
      cases v with
      | bool b =>
        cases verdict
        exact ⟨f, mem⟩
      | _ => cases verdict
    | _ => cases failed
  · rintro ⟨f, mem⟩
    exact ⟨_, mem, rfl⟩

/-- **Dry runs.** In a dry run no process is started for a command and no exit expression is looked at,
and entries count as said by `Value.verdict?`; so a command fails exactly if one of its entries is
false. Processes are only started by expressions in which the one helper for it is called. No error
speaks of a process or of its exit code, in a rule or not, and apart from that the errors are those of
the steps that the run gets to. -/
theorem executeFiles_dry (dry : s.options.dryRun = true) (files : List ProjectFile) (w : World) :
    (∃ events, w.Leads events ((executeFiles files).run s w).2 ∧
      (∀ f line directory, .launched .command f line directory ∉ events) ∧
      (∀ check, .judging check ∉ events) ∧
      ∀ f v success, .judged f v success ∈ events → v.verdict? = some success) ∧
    (∀ j scope w b w', (Command.run j scope).run s w = (.ok b, w') →
      ∃ events, w.Leads events w' ∧ (b = false ↔ ∃ f, .judged f (.bool false) false ∈ events)) ∧
    (∀ expression scope, Helper.starter ∉ callsOf expression →
      Action.Keeps (World.Does fun e => e.isLaunch = false) s (evaluate expression scope)) ∧
    (∀ template scope, Helper.starter ∉ Template.calls template →
      Action.Keeps (World.Does fun e => e.isLaunch = false) s (Template.render template scope)) ∧
    (∀ e, ((executeFiles files).run s w).1 = .error e →
      (∀ command message, e.root ≠ .processSpawn command message) ∧
      (∀ command millis, e.root ≠ .processTimeout command millis) ∧
      ∀ found, e.root ≠ .nonBooleanExitCheck found) ∧
    ∀ e, ((executeFiles files).run s w).1 = .error e ↔ FilesFail s w files e := by
  have reported e : ((executeFiles files).run s w).1 = .error e ↔ FilesFail s w files e :=
    executeFilesFrom_failsWith dry
  refine ⟨?_, fun _ _ _ _ _ => run_dry_success dry, ?_, ?_, ?_, reported⟩
  · obtain ⟨events, lead, kinds⟩ := executeFiles_isDry dry files w
    exact ⟨events, lead, fun _ _ _ mem => kinds _ mem, fun _ mem => kinds _ mem,
      fun _ _ _ mem => kinds _ mem⟩
  · intro expression scope quiet
    exact evaluate_keeps_of expression scope (Helper.keep_launches_nothing quiet)
  · intro template scope quiet
    exact Template.render_keeps_of template scope (Helper.keep_launches_nothing quiet)
  · intro e failed
    have other := not_ofProcess_of_filesFail ((reported e).mp failed)
    refine ⟨?_, ?_, ?_⟩
    · intro command message same
      exact other (same ▸ trivial)
    · intro command millis same
      exact other (same ▸ trivial)
    · intro found same
      exact other (same ▸ trivial)

/-- A dry run for a document at the root. -/
def dryDocument : Setting :=
  let s := Setting.ofDocument "doc.tex" true
  { s with options := { s.options with dryRun := true } }

/-- A world with a file whose only command has an exit expression that yields no truth value. -/
def badExit : World where
  files := .ofTexts
    [("doc.tex", "% arara: count\n"),
      ("count.yaml",
        "identifier: count\ncommands:\n- command: \"@\x7b getCommand('true') \x7d\"\n  exit: '1 + 1'\n")]

/-- The exit expression does no harm in a dry run. -/
theorem executeFiles_dry_badExit :
    dryDocument.options.dryRun = true ∧
      ∃ events, badExit.Leads events ((executeFiles [.ofName "doc.tex"]).run dryDocument badExit).2 ∧
        .judged ⟨"/doc.tex"⟩ (.command ⟨["true"], none⟩) true ∈ events ∧
        (∀ f line directory, .launched .command f line directory ∉ events) ∧
        (∀ check, .judging check ∉ events) ∧
        ∀ e, ¬FilesFail dryDocument badExit [.ofName "doc.tex"] e := by
  have dry : dryDocument.options.dryRun = true := rfl
  obtain ⟨⟨events, lead, launches, checks, -⟩, -, -, -, -, reported⟩ :=
    executeFiles_dry dry [.ofName "doc.tex"] badExit
  refine ⟨dry, events, lead, ?_, launches, checks, ?_⟩
  · have noted : .judged ⟨"/doc.tex"⟩ (.command ⟨["true"], none⟩) true ∈
        ((executeFiles [.ofName "doc.tex"]).run dryDocument badExit).2.journal := by decide +kernel
    rw [lead.journal] at noted
    simpa [badExit] using noted
  · intro e failed
    have ran := Action.run_eq_ok (a := executeFiles [.ofName "doc.tex"]) (w := badExit)
      (s := dryDocument) (x := .processing) (by decide +kernel)
    have impossible := (reported e).mpr failed
    rw [ran] at impossible
    cases impossible

end Execution

end DirectiveRunner
