import DirectiveRunner.Proofs.Execution
import DirectiveRunner.Run.File
/-!
# What processing files does

Two things keep a halted file from being processed any further: the loop over its directives is left,
and a directive that is executed all the same does nothing. Either would do. The loop that is never left
(`executeThrough`) has the same results and the same effects, because the status of a directive that
halts the file is the one that all directives after it would have.
-/

namespace DirectiveRunner

namespace Status

theorem foldl_max (s : Status) (ts : List Status) : ts.foldl Status.max s = s.max (worst ts) := by
  induction ts generalizing s with
  | nil => cases s <;> rfl
  | cons t ts ih =>
    rw [worst, List.foldl_cons, List.foldl_cons, ih, ih, processing_max, max_assoc]

theorem worst_cons (s : Status) (ts : List Status) : worst (s :: ts) = s.max (worst ts) := by
  rw [worst, List.foldl_cons, processing_max, foldl_max]

/-- What is no worse than a status does not make it worse, however often it is met. -/
theorem max_worst_replicate {s t : Status} (h : s.max t = s) (n : Nat) :
    s.max (worst (.replicate n t)) = s := by
  induction n with
  | zero => cases s <;> rfl
  | succ n ih => rw [List.replicate_succ, worst_cons, ← max_assoc, h, ih]

end Status

namespace Execution

variable {s : Setting} {w w' : World}

/-- Processes the current file without looking whether it is halted: all of its directives are
executed, and their worst status is given. -/
def executeAllThrough : Action RunError Status := do
  let s ← Action.setting
  let w ← Action.world
  let ds ← .ofExcept (s.file.directives w.files s.options.headerOnly)
  Action.report (.processing s.file.name (s.file.size? w.files))
  if ds.isEmpty then Action.report (.noDirectives s.file.name)
  return .worst (← ds.mapM execute)

/-- Processes a file without looking whether it is halted. -/
def executeThrough (f : ProjectFile) : Action RunError Status :=
  executeAllThrough.withSetting fun s => { s with file := f }

/-- In a halted file all directives together have the status of the halt and leave no trace. -/
theorem mapM_execute_of_halted {code : Int64} (h : w.session.haltCode? s.file.path = some code)
    (ds : List Directive) :
    (ds.mapM execute).run s w = (.ok (.replicate ds.length (.ofHaltCode code)), w) := by
  induction ds with
  | nil => rfl
  | cons d ds ih =>
    rw [List.mapM_cons, Action.run_bind, execute_of_halted h]
    simp only
    rw [Action.run_bind, ih]
    rfl

/-- Leaving the loop at a halt changes nothing. -/
theorem executeAll_eq_mapM (ds : List Directive) (st : Status) :
    executeAll st ds = (do return st.max (.worst (← ds.mapM execute))) := by
  induction ds generalizing st with
  | nil => cases st <;> rfl
  | cons d ds ih =>
    funext s w
    show (executeAll st (d :: ds)).run s w = Action.run _ s w
    rw [executeAll, List.mapM_cons, bind_assoc, Action.run_bind, Action.run_bind]
    rcases executed : (execute d).run s w with ⟨e | st₁, w₁⟩
    · rfl
    simp only [bind_assoc, pure_bind, Status.worst_cons, Action.run_haltCode?_bind]
    cases hw : w₁.session.haltCode? s.file.path with
    | none => simp [ih, Status.max_assoc]
    | some code =>
      -- the directives left out have the status of the one that ends the loop
      have halted : st₁ = .ofHaltCode code := execute_halted executed hw
      rw [Action.run_bind, mapM_execute_of_halted hw, ← halted]
      simp [Status.max_worst_replicate (Status.max_self st₁)]

/-- **Stopping at a halt loses nothing.** A file is processed with the same result, the same session and
files afterwards and the same journal, and so with the same processes and the same output, if its
directives are executed one and all. For in a halted file a directive has the status of the halt,
whatever it asks for, and leaves no trace. -/
theorem executeFile_eq_executeThrough (f : ProjectFile) :
    executeFile f = executeThrough f ∧
      ∀ (s : Setting) (w : World) (code : Int64) (d : Directive),
        w.session.haltCode? s.file.path = some code →
          (execute d).run s w = (.ok (.ofHaltCode code), w) := by
  refine ⟨?_, fun s w code d halted => execute_of_halted halted d⟩
  have current : executeCurrent = executeAllThrough := by
    unfold executeCurrent executeAllThrough
    refine bind_congr fun s => bind_congr fun w => bind_congr fun ds => bind_congr fun _ => ?_
    cases ds with
    | nil => rfl
    | cons d ds => simp [executeAll_eq_mapM]
  rw [executeFile, executeThrough, current]

/-- A world with a file whose first directive halts it and whose second one has no rule. -/
def haltedBeforeAbsent : World where
  files := .ofTexts
    [("doc.tex", "% arara: stop\n% arara: absent\n"),
      ("stop.yaml", "identifier: stop\ncommands:\n- command: '@\x7b halt(3) \x7d'\n")]

/-- A directive that could not be executed does no harm after a halt. -/
theorem executeThrough_haltedBeforeAbsent :
    ((executeThrough (.ofName "doc.tex")).run (.ofDocument "doc.tex" true)
      haltedBeforeAbsent).1.toOption = some .externalCallFailed := by
  rw [← (executeFile_eq_executeThrough _).1]
  decide +kernel

/-! ## Relations that runs keep -/

section Keeps

variable {R : World → World → Prop} [IsPreorder World R]

theorem executeAll_keeps (directives : ∀ d, Action.Keeps R s (execute d)) :
    ∀ (ds : List Directive) (st : Status), Action.Keeps R s (executeAll st ds)
  | [], st => .pure st
  | d :: ds, _ =>
    .bind (directives d) fun _ => .bind .haltCode? fun _ =>
      .ite (.pure _) (executeAll_keeps directives ds _)

theorem executeCurrent_keeps (shown : ∀ w n, R w (w.noted (.shown n)))
    (directives : ∀ d, Action.Keeps R s (execute d)) : Action.Keeps R s executeCurrent := by
  refine .bind_setting <| .bind .world fun w => .bind (.ofExcept _) fun ds => ?_
  refine .bind (.record fun w => shown w _) fun _ => ?_
  split
  · exact .bind (.record fun w => shown w _) fun _ => .pure _
  · exact executeAll_keeps directives _ _

theorem executeFilesFrom_keeps (shown : ∀ w n, R w (w.noted (.shown n)))
    (directives : ∀ f d, Action.Keeps R { s with file := f } (execute d)) :
    ∀ (fs : List ProjectFile) (st : Status), Action.Keeps R s (executeFilesFrom st fs)
  | [], st => .pure st
  | f :: fs, _ =>
    .bind (.withSetting (executeCurrent_keeps shown (directives f))) fun _ =>
      executeFilesFrom_keeps shown directives fs _

end Keeps

end Execution

/-- Whether an event only says what happens in a run, and comes with no change of the session. -/
def Event.isNote : Event → Prop
  | .halted _ _ | .stored _ _ => False
  | _ => True

theorem Event.isNote_of_isProgress {e : Event} (h : e.isProgress) : e.isNote := by
  cases e <;> first | exact h.elim | trivial

/-- What is asked of a relation for everything in a run to keep it while the current file is
processed. -/
structure KeptByRun (R : World → World → Prop) (s : Setting) : Prop extends KeptByHelpers R s where
  noted (w : World) (e : Event) : e.isNote → R w (w.noted e)

namespace KeptByRun

variable {R : World → World → Prop} [IsPreorder World R] {s : Setting}

theorem calls (h : KeptByRun R s) (name : String) (args : List Value) :
    Action.Keeps R s (Helper.call name args) :=
  Helper.call_keeps_of h.toKeptByOtherHelpers (fun _ => h.stored)
    (fun _ w _ _ => h.noted w _ trivial) args

theorem entries (h : KeptByRun R s) : Command.KeptByEntries R s where
  calls := h.calls
  files w files := h.changed w w.session.cache files
  shown w _ := h.noted w _ trivial
  judging _ w _ := h.noted w _ trivial

theorem bind (h : KeptByRun R s) (r : Rule) (d : Directive) : Action.Keeps R s (Binding.bind r d) :=
  Binding.bind_keeps h.calls (fun w _ => h.noted w _ trivial) r d

theorem allows (h : KeptByRun R s) (scope : Bindings) (c : Conditional) :
    Action.Keeps R s (Condition.allows scope c) :=
  Condition.allows_keeps h.calls (fun w _ => h.noted w _ trivial) scope c

theorem runEntry (h : KeptByRun R s) (j : Command.Job) (v : Value) :
    Action.Keeps R s (Command.runEntry j v) :=
  Command.runEntry_keeps h.entries j fun _ w _ _ => h.noted w _ trivial

theorem runEntries (h : KeptByRun R s) (j : Command.Job) (vs : List Value) :
    Action.Keeps R s (Command.runEntries j vs) :=
  Command.runEntries_keeps h.entries (fun _ w _ _ => h.noted w _ trivial)
    (fun _ w _ _ _ => h.noted w _ trivial) vs

theorem launch (h : KeptByRun R s) (line : CommandLine) (directory : Path) :
    Action.Keeps R s (Command.launch line directory) :=
  Command.launch_keeps h.entries.files (fun w _ => h.entries.shown w _) line directory
    fun _ w => h.noted w _ trivial

theorem command (h : KeptByRun R s) (j : Command.Job) (scope : Bindings) :
    Action.Keeps R s (Command.run j scope) :=
  Command.run_keeps h.entries (fun _ w _ _ => h.noted w _ trivial)
    (fun _ w _ _ _ => h.noted w _ trivial) (fun w _ => h.noted w _ trivial)
    (fun w _ => h.noted w _ trivial) scope

theorem directives (h : KeptByRun R s) : Execution.KeptByDirectives R s where
  calls := h.calls
  noted w _ progress := h.noted w _ (Event.isNote_of_isProgress progress)
  halted w := h.halted w _
  ran j scope w _ := h.command j scope w

theorem rounds (h : KeptByRun R s) : Execution.KeptByRounds (fun _ => True) R s where
  running := trivial
  calls := h.calls
  stopped w _ := h.noted w _ trivial
  finished w _ _ := h.noted w _ trivial
  halted w := h.halted w _
  begun w _ _ := h.noted w _ trivial
  asked w _ _ := h.noted w _ trivial
  ran j scope w _ := h.command j scope w

theorem execute (h : KeptByRun R s) (d : Directive) : Action.Keeps R s (Execution.execute d) :=
  Execution.execute_keeps h.directives (fun w _ => h.noted w _ trivial) d

theorem executeCurrent (h : KeptByRun R s) : Action.Keeps R s Execution.executeCurrent :=
  Execution.executeCurrent_keeps (fun w _ => h.noted w _ trivial) h.execute

theorem executeFiles (h : ∀ f, KeptByRun R { s with file := f }) (fs : List ProjectFile)
    (st : Status) : Action.Keeps R s (Execution.executeFilesFrom st fs) :=
  Execution.executeFilesFrom_keeps (fun w _ => (h s.file).noted w _ trivial)
    (fun f => (h f).execute) fs st

end KeptByRun

end DirectiveRunner
