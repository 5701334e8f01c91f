import DirectiveRunner.Proofs.Entries
import DirectiveRunner.Proofs.Raise
/-!
# Entries that are closed

The user sees that an entry starts, and then how it has ended. Between the two a process runs and its
exit code is judged, and both can fail. If the process fails, the entry is closed all the same; if its
exit code cannot be judged, it is not. `run_closes_iff` says that there is no other way in which an
entry is left open, and that only the last one can be.
-/

namespace DirectiveRunner

/-- Whether an event is that the user sees the start of an entry or its end. -/
def Event.isEntryMark : Event → Bool
  | .shown (.entryOpened _ _) | .shown (.entryClosed _ _) => true
  | _ => false

theorem Event.isEntryMark_of_byExpression {file : Path} {e : Event} (h : e.byExpression file) :
    e.isEntryMark = false := by
  unfold byExpression at h
  split at h <;> simp_all [isEntryMark]

namespace Command

variable {label : EntryLabel} {verbose : Bool} {es es' : List Event}

/-- Entries that were opened and closed one after the other. -/
inductive Complete (label : EntryLabel) (verbose : Bool) : List Event → Prop
  | nil : Complete label verbose []
  | cons (success : Bool) {es : List Event} : Complete label verbose es →
    Complete label verbose
      (.shown (.entryOpened label verbose) :: .shown (.entryClosed success verbose) :: es)

/-- Complete entries, and then one that was opened and not closed. -/
inductive LeftOpen (label : EntryLabel) (verbose : Bool) : List Event → Prop
  | opened : LeftOpen label verbose [.shown (.entryOpened label verbose)]
  | cons (success : Bool) {es : List Event} : LeftOpen label verbose es →
    LeftOpen label verbose
      (.shown (.entryOpened label verbose) :: .shown (.entryClosed success verbose) :: es)

namespace Complete

theorem single (success : Bool) : Complete label verbose
    [.shown (.entryOpened label verbose), .shown (.entryClosed success verbose)] :=
  .cons success .nil

theorem append (h : Complete label verbose es) (h' : Complete label verbose es') :
    Complete label verbose (es ++ es') := by
  induction h with
  | nil => exact h'
  | cons success _ ih => exact .cons success ih

theorem leftOpen_append (h : Complete label verbose es) (h' : LeftOpen label verbose es') :
    LeftOpen label verbose (es ++ es') := by
  induction h with
  | nil => exact h'
  | cons success _ ih => exact .cons success ih

theorem not_leftOpen (h : Complete label verbose es) : ¬LeftOpen label verbose es := by
  induction h with
  | nil => exact nofun
  | cons success _ ih =>
    intro leftOpen
    cases leftOpen with
    | cons _ later => exact ih later

end Complete

/-! ## One entry -/

/-- The result is the error of a check. -/
def FailsCheck (r : Except RunError Bool) : Prop := ∃ x, r = .error x ∧ x.isCheck

theorem not_failsCheck_ok (b : Bool) : ¬FailsCheck (.ok b) := nofun

theorem failsCheck_map {f : Bool → Bool} {r : Except RunError Bool} :
    FailsCheck (r.map f) ↔ FailsCheck r := by
  cases r with
  | error x => exact .rfl
  | ok b => exact iff_of_false (not_failsCheck_ok _) (not_failsCheck_ok b)

/-- The entries that were opened from one world to the other were closed one after the other, the last
one exactly if the result is no error of a check. -/
def Closes (j : Job) (s : Setting) (w : World) (r : Except RunError Bool) (w' : World) : Prop :=
  ∃ marks, w.Marks Event.isEntryMark marks w' ∧
    (Complete j.label s.options.verbose marks ∧ ¬FailsCheck r ∨
      LeftOpen j.label s.options.verbose marks ∧ FailsCheck r)

variable {j : Job} {scope : Bindings} {s : Setting} {w w₁ w' : World} {r : Except RunError Bool}

theorem launch_unmarked (line : CommandLine) (directory : Path) :
    Action.Keeps (World.Does (Event.isEntryMark · = false)) s (launch line directory) :=
  launch_keeps (fun _ _ => ⟨[], .of_eq rfl rfl, by simp⟩) (fun _ _ => .noted rfl nofun) line directory
    fun _ _ => .noted rfl nofun

theorem judge_unmarked (j : Job) (code : Int64) :
    Action.Keeps (World.Does (Event.isEntryMark · = false)) s (judge j code) := by
  refine judge_keeps (fun name args => ?_) (fun _ _ => .noted rfl nofun) j code
  exact (Helper.call_keeps name args).mono fun _ _ h =>
    h.mono fun _ => Event.isEntryMark_of_byExpression

theorem marks_shown (w : World) {n : Notice} (unmarked : (Event.shown n).isEntryMark = false) :
    w.Marks Event.isEntryMark [] (w.noted (.shown n)) :=
  .of_does (.noted unmarked nofun)

theorem marks_opened (w : World) (label : EntryLabel) (verbose : Bool) :
    w.Marks Event.isEntryMark [.shown (.entryOpened label verbose)]
      (w.noted (.shown (.entryOpened label verbose))) :=
  .noted rfl nofun

theorem marks_closed (w : World) (success verbose : Bool) :
    w.Marks Event.isEntryMark [.shown (.entryClosed success verbose)]
      (w.noted (.shown (.entryClosed success verbose))) :=
  .noted rfl nofun

theorem spawn_closes {line : CommandLine} (ran : (spawn j line).run s w = (r, w')) :
    Closes j s w r w' := by
  cases dry : s.options.dryRun with
  | true =>
    rw [spawn, Action.run_setting_bind, if_pos dry, Action.run_report_bind] at ran
    cases ran
    exact ⟨[], marks_shown w rfl, .inl ⟨.nil, not_failsCheck_ok true⟩⟩
  | false =>
    have opened := marks_opened w j.label s.options.verbose
    rcases spawn_cases dry ran with ⟨x, w₁, failed, rfl, rfl⟩ | ⟨code, w₁, started, h⟩
    · -- the process fails, and the entry is closed
      have ended := (opened.quiet ((launch_unmarked _ _).of_run failed)).trans
        (marks_closed w₁ false s.options.verbose)
      refine ⟨_, ended, .inl ⟨.single false, ?_⟩⟩
      rintro ⟨_, ⟨⟩, check⟩
      exact RunError.not_isCheck_of_isProcess (launch_raises _ _ _ _ _ _ failed) check
    have running := opened.quiet ((launch_unmarked _ _).of_run started)
    rcases h with ⟨x, unjudged, rfl⟩ | ⟨success, w₂, judged, rfl, rfl⟩
    · -- the exit code cannot be judged, and nothing more is shown
      refine ⟨_, running.quiet ((judge_unmarked j code).of_run unjudged), .inr ⟨.opened, x, rfl, ?_⟩⟩
      exact judge_raises j code _ _ _ _ unjudged
    · have ended := (running.quiet ((judge_unmarked j code).of_run judged)).trans
        (marks_closed w₂ success s.options.verbose)
      exact ⟨_, ended, .inl ⟨.single success, not_failsCheck_ok success⟩⟩

theorem runEntry_closes {e : Value} (ran : (runEntry j e).run s w = (r, w')) :
    Closes j s w r w' := by
  cases e with
  | bool b =>
    rw [runEntry, Action.run_setting_bind] at ran
    dsimp only at ran
    split at ran
    · rw [Action.run_report_bind] at ran
      cases ran
      exact ⟨[], marks_shown w rfl, .inl ⟨.nil, not_failsCheck_ok b⟩⟩
    · rw [Action.run_report_bind, Action.run_report_bind] at ran
      cases ran
      exact ⟨_, (marks_opened ..).trans (marks_closed ..), .inl ⟨.single b, not_failsCheck_ok b⟩⟩
  | command line => exact spawn_closes ran
  | _ =>
    cases ran
    refine ⟨[], .of_does (refl_of _ w), .inl ⟨.nil, ?_⟩⟩
    rintro ⟨_, ⟨⟩, check⟩
    exact check

/-! ## Commands -/

theorem runEntries_closes {vs : List Value} (ran : (runEntries j vs).run s w = (r, w')) :
    Closes j s w r w' := by
  induction vs generalizing w r with
  | nil =>
    cases ran
    exact ⟨[], .of_does (refl_of _ _), .inl ⟨.nil, not_failsCheck_ok true⟩⟩
  | cons v vs ih =>
    rcases runEntries_cons_cases ran with ⟨x, failed, rfl⟩ | ⟨success, w₁, entry, h⟩
    · exact runEntry_closes failed
    -- the entry has told whether it succeeded, so it is closed, and may be followed by others
    obtain ⟨marks, shown, ⟨complete, _⟩ | ⟨_, impossible⟩⟩ := runEntry_closes entry
    · have judged : w.Marks Event.isEntryMark marks (w₁.noted (.judged s.file.path v success)) :=
        shown.quiet (.noted rfl nofun)
      rcases h with ⟨_, rfl, rfl⟩ | ⟨_, _, r', others, rfl⟩
      · exact ⟨marks, judged, .inl ⟨complete, not_failsCheck_ok success⟩⟩
      · obtain ⟨marks', shown', closed⟩ := ih others
        refine ⟨marks ++ marks', judged.trans shown', ?_⟩
        rw [failsCheck_map]
        exact closed.imp (.imp_left complete.append) (.imp_left complete.leftOpen_append)
    · exact absurd impossible (not_failsCheck_ok success)

/-- Nothing is shown of entries while the template is rendered. -/
theorem render_marks {x : Except EvalError Value}
    (rendered : (Template.render j.command.command scope).run s
      (w.noted (.rendering s.file.path j.command.command)) = (x, w')) :
    w.Marks Event.isEntryMark [] w' := by
  have begun : w.Does (Event.isEntryMark · = false)
      (w.noted (.rendering s.file.path j.command.command)) := .noted rfl nofun
  have done := (Template.render_keeps Helper.call_keeps _ scope).of_run rendered
  exact .quiet (.of_does begun) (done.mono fun _ => Event.isEntryMark_of_byExpression)

/-- The command gets to its entries and ends in the error of an exit expression, so that the exit code
of a process is not judged. -/
def Unjudged (j : Job) (scope : Bindings) (s : Setting) (w : World) : Prop :=
  (∃ v w₁, Renders j scope s w v w₁) ∧ FailsCheck ((run j scope).run s w).1

/-- **Every entry is closed, unless its exit code cannot be judged.** Whatever a command does, the
entries that the user sees are opened and closed one after the other, and all of them are closed exactly
if the command does not end in the error of an exit expression, which could not be evaluated or has
yielded no truth value. If it does, then the last entry is left open, and only that one. So entries are
closed if they are truth values, if their process succeeds or fails, and also if it cannot be started or
is stopped. -/
theorem run_closes_iff (j : Job) (scope : Bindings) (s : Setting) (w : World) :
    ∃ marks, w.Marks Event.isEntryMark marks ((run j scope).run s w).2 ∧
      (Complete j.label s.options.verbose marks ↔ ¬Unjudged j scope s w) ∧
      (LeftOpen j.label s.options.verbose marks ↔ Unjudged j scope s w) := by
  rcases ran : (run j scope).run s w with ⟨r, w'⟩
  rcases run_cases ran with ⟨x, failed, rfl⟩ | ⟨v, w₁, rendered, entries⟩
  · -- a command that is not rendered has no entries, so nothing is marked
    have judged : ¬Unjudged j scope s w := by
      rintro ⟨⟨v, _, w₁, rendered, _⟩, _⟩
      rw [rendered] at failed
      cases failed
    exact ⟨[], render_marks failed, iff_of_true .nil judged, iff_of_false nofun judged⟩
  · have unjudged : Unjudged j scope s w ↔ FailsCheck r := by
      rw [Unjudged, ran]
      exact and_iff_right ⟨v, _, w₁, rendered, rfl⟩
    have begun := (render_marks rendered).quiet (.noted (e := .rendered s.file.path v) rfl nofun)
    obtain ⟨marks, shown, closed⟩ := runEntries_closes entries
    refine ⟨marks, begun.trans shown, ?_⟩
    rw [unjudged]
    rcases closed with ⟨complete, judged⟩ | ⟨leftOpen, fails⟩
    · exact ⟨iff_of_true complete judged, iff_of_false complete.not_leftOpen judged⟩
    · refine ⟨iff_of_false (fun complete => ?_) (not_not.mpr fails), iff_of_true leftOpen fails⟩
      exact complete.not_leftOpen leftOpen

/-- A command whose exit expression yields the exit code itself leaves its entry open. -/
theorem run_leavesOpen :
    let s := Setting.ofDocument "doc.tex" true
    let j : Job := ⟨{ identifier := "check" },
      { command := "@\x7b getCommand('true') \x7d", exit := some "value" }, .none⟩
    s.options.dryRun = false ∧
      ((run j []).run s {}).1 = .error (.nonBooleanExitCheck "integer") ∧
      ¬∃ marks, World.Marks Event.isEntryMark marks {} ((run j []).run s {}).2 ∧
        Complete j.label s.options.verbose marks := by
  intro s j
  have result : ((run j []).run s {}).1 = .error (.nonBooleanExitCheck "integer") := by
    decide +kernel
  refine ⟨rfl, result, ?_⟩
  rintro ⟨marks, ⟨events, lead, rfl⟩, complete⟩
  have opened : ((run j []).run s {}).2.journal.reverse.filter Event.isEntryMark =
      [.shown (.entryOpened j.label s.options.verbose)] := by decide +kernel
  rw [lead.journal, List.append_nil, List.reverse_reverse] at opened
  rw [opened] at complete
  cases complete

end Command

end DirectiveRunner
