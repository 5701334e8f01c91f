import DirectiveRunner.Proofs.Expression
import DirectiveRunner.Run.Command
/-!
# What commands do

A command that is run renders its template, which is an expression's doing, and then runs entries. An
entry shows how it goes and may start one process; after it the journal says how it was judged. What a
command returns is what the journal says of its entries: it succeeded exactly if no entry failed
(`Command.run_success`).
-/

namespace DirectiveRunner

namespace Event

/-- Whether an event is one that happens while an entry of a command is run. -/
def byEntry (file : Path) : Event → Prop
  | .shown _ | .stored _ _ | .judging _ => True
  | .launched _ f _ _ | .halted f _ => f = file
  | _ => False

/-- Whether an event is one that happens while a command is run. -/
def byCommand (file : Path) : Event → Prop
  | .shown _ | .stored _ _ | .judging _ => True
  | .launched _ f _ _ | .halted f _ | .rendering f _ | .rendered f _ | .judged f _ _ => f = file
  | _ => False

/-- Whether an event says that an entry has failed. -/
def failsEntry : Event → Bool
  | .judged _ _ success => !success
  | _ => false

theorem byEntry_of_byExpression {file : Path} {e : Event} (h : e.byExpression file) :
    e.byEntry file := by
  unfold byExpression at h
  split at h <;> simp_all [byEntry]

theorem byCommand_of_byEntry {file : Path} {e : Event} (h : e.byEntry file) :
    e.byCommand file := by
  unfold byEntry at h
  split at h <;> simp_all [byCommand]

theorem failsEntry_of_byEntry {file : Path} {e : Event} (h : e.byEntry file) :
    e.failsEntry = false := by
  cases e <;> first | rfl | exact h.elim

end Event

/-- Whether an entry starts a process. -/
def Value.startsProcess (o : Options) : Value → Bool
  | .command line => !o.dryRun && !line.arguments.isEmpty
  | _ => false

theorem Value.wet_of_startsProcess {o : Options} {v : Value} (h : v.startsProcess o = true) :
    o.dryRun = false := by
  cases v with
  | command line => simp_all [startsProcess]
  | _ => cases h

namespace Command

variable {R : World → World → Prop} [IsPreorder World R] {s : Setting}

/-! ## The steps of a command -/

/-- What is asked of a relation for everything in an entry to keep it, the start of a process apart. -/
structure KeptByEntries (R : World → World → Prop) (s : Setting) : Prop where
  calls (name : String) (args : List Value) : Action.Keeps R s (Helper.call name args)
  files (w : World) (files : FileTree) : R w { w with files := files }
  shown (w : World) (n : Notice) : R w (w.noted (.shown n))
  /-- Unless the run is dry, an exit expression may be evaluated. -/
  judging : s.options.dryRun = false → ∀ w check, R w (w.noted (.judging check))

omit [IsPreorder World R] in
theorem KeptByEntries.report (h : KeptByEntries R s) (n : Notice) :
    Action.Keeps R s (Action.report n : Action RunError Unit) :=
  .record fun w => h.shown w n

theorem judge_keeps (calls : ∀ name args, Action.Keeps R s (Helper.call name args))
    (judging : ∀ w check, R w (w.noted (.judging check))) (j : Job) (code : Int64) :
    Action.Keeps R s (judge j code) := by
  refine .bind (.record fun w => judging w _) fun _ => ?_
  refine .bind (.mapError (evaluate_keeps calls _ _)) fun verdict => ?_
  split
  · exact .pure _
  · exact .fail _

theorem exitCode_keeps (line : CommandLine) : ∀ e : Ending, Action.Keeps R s (exitCode line e)
  | .exited code => .pure code
  | .notStarted _ => .fail _
  | .killed => .bind_setting (.fail _)

section

variable (files : ∀ (w : World) (files : FileTree), R w { w with files := files })
  (output : ∀ (w : World) (text : String), R w (w.noted (.shown (.output text))))

include files output

theorem conclude_keeps (line : CommandLine) (outcome : Outcome) :
    Action.Keeps R s (conclude line outcome) := by
  refine .bind_setting <| .bind (.modify fun w => files w outcome.files) fun _ => ?_
  refine .ite (.bind (.record fun w => output w _) fun _ => ?_) ?_
  · exact exitCode_keeps line _
  · exact exitCode_keeps line _

theorem launch_keeps (line : CommandLine) (directory : Path)
    (launched : line.arguments ≠ [] →
      ∀ w, R w (w.noted (.launched .command s.file.path line directory))) :
    Action.Keeps R s (launch line directory) := by
  refine .bind_setting ?_
  split
  · exact .fail _
  · next given =>
    refine .bind (.record (launched (by simp [given]))) fun _ => .bind .world fun w => ?_
    exact conclude_keeps files output line _

end

theorem spawn_keeps (h : KeptByEntries R s) (j : Job) {line : CommandLine}
    (launched : (Value.command line).startsProcess s.options = true →
      ∀ w directory, R w (w.noted (.launched .command s.file.path line directory))) :
    Action.Keeps R s (spawn j line) := by
  refine .bind_setting ?_
  split
  · exact .bind (h.report _) fun _ => .pure _
  · next wet =>
    have kept := launch_keeps h.files (fun w _ => h.shown w _) line
      (line.directory.getD s.options.workingDirectory)
      fun given w => launched (by simp [Value.startsProcess, wet, given]) w _
    refine .bind (h.report _) fun _ => .bind (.onFailure kept (h.report _)) fun code => ?_
    exact .bind (judge_keeps h.calls (h.judging (by simpa using wet)) j code) fun _ =>
      .bind (h.report _) fun _ => .pure _

theorem runEntry_keeps (h : KeptByEntries R s) (j : Job) {v : Value}
    (launched : v.startsProcess s.options = true →
      ∀ w line directory, R w (w.noted (.launched .command s.file.path line directory))) :
    Action.Keeps R s (runEntry j v) := by
  unfold runEntry
  split
  · refine .bind_setting <| .ite (.bind (h.report _) fun _ => .pure _) ?_
    exact .bind (h.report _) fun _ => .bind (h.report _) fun _ => .pure _
  · exact spawn_keeps h j fun starts w directory => launched starts w _ directory
  · exact .fail _

theorem runEntries_keeps (h : KeptByEntries R s) {j : Job}
    (launched : s.options.dryRun = false →
      ∀ w line directory, R w (w.noted (.launched .command s.file.path line directory)))
    (judged : ∀ w w' v b, (runEntry j v).run s w = (.ok b, w') →
      R w' (w'.noted (.judged s.file.path v b))) :
    ∀ vs : List Value, Action.Keeps R s (runEntries j vs)
  | [] => .pure true
  | v :: vs => by
    have kept : Action.Keeps R s (runEntry j v) :=
      runEntry_keeps h j fun starts => launched (Value.wet_of_startsProcess starts)
    intro w
    refine Action.Keeps.bind_from (kept w) fun success w₁ ran => ?_
    rw [Action.run_setting_bind, Action.run_record_bind]
    refine trans_of R (judged w w₁ v success ran) (Action.Keeps.ite (.pure _) ?_ _)
    refine .bind .haltCode? fun code => .ite (.pure _) ?_
    exact .bind (runEntries_keeps h launched judged vs) fun _ => .pure _

theorem run_keeps (h : KeptByEntries R s) {j : Job}
    (launched : s.options.dryRun = false →
      ∀ w line directory, R w (w.noted (.launched .command s.file.path line directory)))
    (judged : ∀ w w' v b, (runEntry j v).run s w = (.ok b, w') →
      R w' (w'.noted (.judged s.file.path v b)))
    (rendering : ∀ w t, R w (w.noted (.rendering s.file.path t)))
    (rendered : ∀ w v, R w (w.noted (.rendered s.file.path v))) (scope : Bindings) :
    Action.Keeps R s (run j scope) := by
  refine .bind_setting <| .bind (.record fun w => rendering w _) fun _ => ?_
  refine .bind (.mapError (Template.render_keeps h.calls _ scope)) fun v => ?_
  refine .bind (.record fun w => rendered w v) fun _ => ?_
  exact runEntries_keeps h launched judged (entries v)

/-! ## The events of a command -/

/-- A preorder of events is kept by entries if they may do what expressions do and show something. -/
theorem keptByEntries_does {P : Event → Prop}
    (expression : ∀ e : Event, e.byExpression s.file.path → P e) (shown : ∀ n, P (.shown n))
    (judging : s.options.dryRun = false → ∀ check, P (.judging check)) :
    KeptByEntries (World.Does P) s where
  calls name args := (Helper.call_keeps name args).mono fun _ _ h => h.mono expression
  files w files := ⟨[], .of_eq rfl rfl, by simp⟩
  shown w n := .noted (shown n) nofun
  judging wet w check := .noted (judging wet check) nofun

theorem runEntry_does (j : Job) (v : Value) :
    Action.Keeps (World.Does (Event.byEntry s.file.path)) s (runEntry j v) := by
  have kept : KeptByEntries (World.Does (Event.byEntry s.file.path)) s :=
    keptByEntries_does (fun _ => Event.byEntry_of_byExpression) (fun _ => trivial) fun _ _ => trivial
  apply runEntry_keeps kept
  intro _ w line directory
  exact .noted rfl nofun

theorem run_does (j : Job) (scope : Bindings) :
    Action.Keeps (World.Does (Event.byCommand s.file.path)) s (run j scope) := by
  have kept : KeptByEntries (World.Does (Event.byCommand s.file.path)) s :=
    keptByEntries_does (fun _ h => Event.byCommand_of_byEntry (Event.byEntry_of_byExpression h))
      (fun _ => trivial) fun _ _ => trivial
  apply run_keeps kept
  · intro _ w line directory
    exact .noted rfl nofun
  · intro _ w v b _
    exact .noted rfl nofun
  · intro w t
    exact .noted rfl nofun
  · intro w v
    exact .noted rfl nofun

/-! ## What a command returns -/

/-- How a process is run, unless the run is dry: it fails and its entry is closed, or its exit code
cannot be judged, or it is judged and its entry is closed. -/
theorem spawn_cases (wet : s.options.dryRun = false) {j : Job} {line : CommandLine} {w w' : World}
    {r : Except RunError Bool} (h : (spawn j line).run s w = (r, w')) :
    let started := (launch line (line.directory.getD s.options.workingDirectory)).run s
      (w.noted (.shown (.entryOpened j.label s.options.verbose)))
    (∃ e w₁, started = (.error e, w₁) ∧ r = .error e ∧
        w' = w₁.noted (.shown (.entryClosed false s.options.verbose))) ∨
      ∃ code w₁, started = (.ok code, w₁) ∧
        ((∃ e, (judge j code).run s w₁ = (.error e, w') ∧ r = .error e) ∨
          ∃ success w₂, (judge j code).run s w₁ = (.ok success, w₂) ∧ r = .ok success ∧
            w' = w₂.noted (.shown (.entryClosed success s.options.verbose))) := by
  intro started
  rw [spawn, Action.run_setting_bind, if_neg (by simp [wet]), Action.run_report_bind] at h
  rcases Action.run_bind_cases h with ⟨e, failed, rfl⟩ | ⟨code, w₁, ran, h⟩
  · rcases Action.run_onFailure_cases failed with ⟨e, w₁, failed, same, rfl⟩ | ⟨_, _, impossible⟩
    · cases same
      exact .inl ⟨e, w₁, failed, rfl, rfl⟩
    · cases impossible
  rcases Action.run_onFailure_cases ran with ⟨_, _, _, impossible, _⟩ | ⟨_, ran, same⟩
  · cases impossible
  cases same
  refine .inr ⟨code, w₁, ran, ?_⟩
  rcases Action.run_bind_cases h with ⟨e, unjudged, rfl⟩ | ⟨success, w₂, judged, h⟩
  · exact .inl ⟨e, unjudged, rfl⟩
  · rw [Action.run_report_bind] at h
    cases h
    exact .inr ⟨success, w₂, judged, rfl, rfl⟩

/-- How a run of entries begins: with the first entry, which fails, or is judged and ends the run, or is
judged and followed by the others. -/
theorem runEntries_cons_cases {j : Job} {v : Value} {vs : List Value} {w w' : World}
    {r : Except RunError Bool} (h : (runEntries j (v :: vs)).run s w = (r, w')) :
    (∃ e, (runEntry j v).run s w = (.error e, w') ∧ r = .error e) ∨
      ∃ success w₁, (runEntry j v).run s w = (.ok success, w₁) ∧
        ((((success = false ∧ s.options.haltOnErrors = true) ∨
              w₁.session.haltCode? s.file.path ≠ none) ∧
            w' = w₁.noted (.judged s.file.path v success) ∧ r = .ok success) ∨
          (¬(success = false ∧ s.options.haltOnErrors = true) ∧
            w₁.session.haltCode? s.file.path = none ∧
            ∃ r', (runEntries j vs).run s (w₁.noted (.judged s.file.path v success)) = (r', w') ∧
              r = r'.map (success && ·))) := by
  rcases Action.run_bind_cases h with failed | ⟨success, w₁, entry, h⟩
  · exact .inl failed
  refine .inr ⟨success, w₁, entry, ?_⟩
  rw [Action.run_setting_bind, Action.run_record_bind] at h
  -- the entry is judged by now; a failure may stop the others, and a halt always does
  split at h
  · next stops =>
    simp only [Bool.and_eq_true, Bool.not_eq_true'] at stops
    cases h
    exact .inl ⟨.inl stops, rfl, by rw [stops.1]⟩
  · next goes =>
    simp only [Bool.and_eq_true, Bool.not_eq_true'] at goes
    rw [Action.run_haltCode?_bind] at h
    split at h
    · next halted =>
      cases h
      exact .inl ⟨.inr (Option.isSome_iff_ne_none.mp halted), rfl, rfl⟩
    · next running =>
      refine .inr ⟨goes, by simpa using running, ?_⟩
      rcases Action.run_bind_cases h with ⟨e, others, rfl⟩ | ⟨b, w₂, others, h⟩
      · exact ⟨_, others, rfl⟩
      · cases h
        exact ⟨_, others, rfl⟩

/-- How a command is run: its template cannot be rendered, or the entries it yields are run. -/
theorem run_cases {j : Job} {scope : Bindings} {w w' : World} {r : Except RunError Bool}
    (h : (run j scope).run s w = (r, w')) :
    (∃ e, (Template.render j.command.command scope).run s
        (w.noted (.rendering s.file.path j.command.command)) = (.error e, w') ∧
        r = .error (.evaluation e)) ∨
      ∃ v w₁, (Template.render j.command.command scope).run s
          (w.noted (.rendering s.file.path j.command.command)) = (.ok v, w₁) ∧
        (runEntries j (entries v)).run s (w₁.noted (.rendered s.file.path v)) = (r, w') := by
  rw [run, Action.run_setting_bind, Action.run_record_bind] at h
  rcases Action.run_bind_cases h with ⟨e, failed, rfl⟩ | ⟨v, w₁, rendered, entries⟩
  · rcases Action.run_mapError_cases failed with ⟨e', broken, he⟩ | ⟨_, _, impossible⟩
    · cases he
      exact .inl ⟨e', broken, rfl⟩
    · cases impossible
  · rcases Action.run_mapError_cases rendered with ⟨_, _, impossible⟩ | ⟨v', yielded, hv⟩
    · cases impossible
    · cases hv
      rw [Action.run_record_bind] at entries
      exact .inr ⟨v, w₁, yielded, entries⟩

/-- **Entries succeed together.** If running entries yields a result, it is whether none of them has
failed. -/
theorem runEntries_success {j : Job} {vs : List Value} {w₀ w' : World} {b : Bool}
    (h : (runEntries j vs).run s w₀ = (.ok b, w')) :
    ∃ events, w₀.Leads events w' ∧ b = !events.any Event.failsEntry := by
  induction vs generalizing w₀ b with
  | nil =>
    cases h
    exact ⟨[], .refl _, rfl⟩
  | cons v vs ih =>
    rcases runEntries_cons_cases h with ⟨_, _, impossible⟩ | ⟨success, w₁, entry, h⟩
    · cases impossible
    obtain ⟨es, lead, hes⟩ := (runEntry_does j v).of_run entry
    -- only the judgement after the entry says whether it has failed
    have quiet := any_eq_false_of hes fun _ => Event.failsEntry_of_byEntry
    have judged := lead.trans (w₁.leads_noted (.judged s.file.path v success) nofun)
    rcases h with ⟨_, rfl, hb⟩ | ⟨_, _, r', others, hb⟩
    · cases hb
      exact ⟨_, judged, by simp [quiet, Event.failsEntry]⟩
    · cases r' with
      | error _ => cases hb
      | ok b' =>
        obtain ⟨es', lead', rfl⟩ := ih others
        cases hb
        exact ⟨_, judged.trans lead', by simp [quiet, Event.failsEntry]⟩

/-- **A command succeeds if all its entries do.** If a command yields a result, it is whether none of
the entries that were run has failed. -/
theorem run_success {j : Job} {scope : Bindings} {w₀ w' : World} {b : Bool}
    (h : (run j scope).run s w₀ = (.ok b, w')) :
    ∃ events, w₀.Leads events w' ∧ b = !events.any Event.failsEntry := by
  rcases run_cases h with ⟨_, _, impossible⟩ | ⟨v, w₁, rendered, entries⟩
  · cases impossible
  obtain ⟨es, lead, hes⟩ := (Template.render_keeps Helper.call_keeps _ scope).of_run rendered
  have quiet := any_eq_false_of hes fun _ h =>
    Event.failsEntry_of_byEntry (Event.byEntry_of_byExpression h)
  obtain ⟨es', lead', rfl⟩ := runEntries_success entries
  have begun := w₀.leads_noted (.rendering s.file.path j.command.command) nofun
  have ended := w₁.leads_noted (.rendered s.file.path v) nofun
  refine ⟨_, ((begun.trans lead).trans ended).trans lead', ?_⟩
  simp [quiet, Event.failsEntry]

end Command

end DirectiveRunner
