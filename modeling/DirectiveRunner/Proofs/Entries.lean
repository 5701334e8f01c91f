import DirectiveRunner.Proofs.DryRun
import DirectiveRunner.Proofs.Effects
import DirectiveRunner.Proofs.Lockstep
/-!
# How far the entries of a command are run

The entries of a command are run one after the other, each in the world that the one before has left.
One of them can end the command: because it cannot be run, because it raises an error, because it has
failed while files are halted on errors, or because the file is halted by now (`Stops`). `Course` says,
without the recursion, how a list of entries is gone through, and `run_eq_iff` that commands do just
that.

Of a rendered value only its entries count, and not how they are nested (`entries_list`). So commands
with other templates that render to the same entries do the same (`run_of_same_entries`).
-/

namespace DirectiveRunner

/-- Truth values and command lines can be run as entries. -/
inductive Value.Runnable : Value → Prop
  | bool (b : Bool) : Runnable (.bool b)
  | command (line : CommandLine) : Runnable (.command line)

namespace Command

variable {j : Job} {scope : Bindings} {s : Setting} {w w₁ w' : World} {e : Value} {es : List Value}
  {b : Bool} {r : Except RunError Bool}

/-! ## The entries of a value -/

/-- The entries of a list are those of its items, one after the other. -/
theorem entries_list (items : List Value) : entries (.list items) = items.flatMap entries := by
  rw [entries, Value.flatten_list, List.filter_flatMap]
  rfl

/-- A value that is no list is its only entry, unless it is blank. -/
theorem entries_of_leaf {v : Value} (leaf : ∀ items, v ≠ .list items) :
    entries v = if v.isBlank then [] else [v] := by
  have alone : v.flatten = [v] := by
    cases v with
    | list items => exact (leaf items rfl).elim
    | _ => rfl
  cases blank : v.isBlank <;> simp [entries, alone, blank]

/-! ## One entry -/

/-- In the world `w` an entry is run and tells whether it succeeded; the world `w'` is left once the
journal says so. -/
def Reports (j : Job) (s : Setting) (w : World) (e : Value) (b : Bool) (w' : World) : Prop :=
  ∃ w₁, (runEntry j e).run s w = (.ok b, w₁) ∧ w' = w₁.noted (.judged s.file.path e b)

/-- No entry is run after one that has failed while files are halted on errors, and none after one
that leaves the file halted. -/
def EndsCommand (s : Setting) (b : Bool) (w : World) : Prop :=
  (b = false ∧ s.options.haltOnErrors = true) ∨ w.session.haltCode? s.file.path ≠ none

/-- In the world `w` an entry is run that does not end the command. -/
def Passes (j : Job) (s : Setting) (w : World) (e : Value) (b : Bool) (w' : World) : Prop :=
  Reports j s w e b w' ∧ ¬EndsCommand s b w'

/-- In the world `w` an entry ends the command with a result, and the world `w'` is left. -/
inductive Stops (j : Job) (s : Setting) :
    World → Value → Except RunError Bool → World → Prop
  /-- The entry is neither a truth value nor a command line. -/
  | unsupported {w : World} {e : Value} :
    ¬e.Runnable → Stops j s w e (.error (.unsupportedResultType e.typeName)) w
  /-- The entry is run and raises an error. -/
  | raises {w w' : World} {e : Value} {x : RunError} :
    e.Runnable → (runEntry j e).run s w = (.error x, w') → Stops j s w e (.error x) w'
  /-- The entry is run, and it has failed or the file is halted. -/
  | reports {w w' : World} {e : Value} {b : Bool} :
    Reports j s w e b w' → EndsCommand s b w' → Stops j s w e (.ok b) w'

theorem stops_of_error {x : RunError} (failed : (runEntry j e).run s w = (.error x, w')) :
    Stops j s w e (.error x) w' := by
  cases e with
  | bool b => exact .raises (.bool b) failed
  | command line => exact .raises (.command line) failed
  | _ =>
    cases failed
    exact .unsupported nofun

theorem run_of_stops_error {x : RunError} (stops : Stops j s w e (.error x) w') :
    (runEntry j e).run s w = (.error x, w') := by
  cases stops with
  | raises _ failed => exact failed
  | unsupported odd =>
    cases e with
    | bool b => exact (odd (.bool b)).elim
    | command line => exact (odd (.command line)).elim
    | _ => rfl

theorem reports_of_stops (stops : Stops j s w e (.ok b) w') :
    Reports j s w e b w' ∧ EndsCommand s b w' := by
  cases stops with
  | reports told ends => exact ⟨told, ends⟩

/-! ## Several entries -/

/-- An entry that tells whether it succeeded ends the command, or the others are run after it. -/
theorem runEntries_of_reports (told : Reports j s w e b w₁) (es : List Value) :
    (EndsCommand s b w₁ ∧ (runEntries j (e :: es)).run s w = (.ok b, w₁)) ∨
      (¬EndsCommand s b w₁ ∧ (runEntries j (e :: es)).run s w =
        (((runEntries j es).run s w₁).1.map (b && ·), ((runEntries j es).run s w₁).2)) := by
  obtain ⟨w₂, entry, rfl⟩ := told
  rcases hr : (runEntries j (e :: es)).run s w with ⟨r, w'⟩
  rcases runEntries_cons_cases hr with ⟨x, failed, _⟩ | ⟨b', w₁', entry', h⟩
  · rw [entry] at failed
    cases failed
  · rw [entry] at entry'
    cases entry'
    rcases h with ⟨ends, rfl, rfl⟩ | ⟨goes, running, r', others, rfl⟩
    · exact .inl ⟨ends, rfl⟩
    · rw [others]
      exact .inr ⟨not_or.mpr ⟨goes, not_not.mpr running⟩, rfl⟩

/-- The first entry ends the command, or it is run and so are the others after it. -/
theorem runEntries_cons_iff :
    (runEntries j (e :: es)).run s w = (r, w') ↔ Stops j s w e r w' ∨
      ∃ b w₁ r', Passes j s w e b w₁ ∧ (runEntries j es).run s w₁ = (r', w') ∧
        r = r'.map (b && ·) := by
  constructor
  · intro h
    rcases entry : (runEntry j e).run s w with ⟨x | b, w₁⟩
    · rw [runEntries, Action.run_bind, entry] at h
      cases h
      exact .inl (stops_of_error entry)
    · have told : Reports j s w e b (w₁.noted (.judged s.file.path e b)) := ⟨w₁, entry, rfl⟩
      rcases runEntries_of_reports told es with ⟨ends, ran⟩ | ⟨goes, ran⟩
      · rw [ran] at h
        cases h
        exact .inl (.reports told ends)
      · rw [ran] at h
        cases h
        exact .inr ⟨b, _, _, ⟨told, goes⟩, rfl, rfl⟩
  · -- what the entry reports ends the run or does not, so one case is refuted each time
    rintro (stops | ⟨b, w₁, r', ⟨told, goes⟩, others, rfl⟩)
    · cases r with
      | error x => rw [runEntries, Action.run_bind, run_of_stops_error stops]
      | ok b =>
        obtain ⟨told, ends⟩ := reports_of_stops stops
        exact ((runEntries_of_reports told es).resolve_right fun h => h.1 ends).2
    · rw [((runEntries_of_reports told es).resolve_left fun h => goes h.1).2, others]

/-- How entries are gone through: with which result, and which world is left. -/
inductive Course (j : Job) (s : Setting) (w : World) (es : List Value) :
    Except RunError Bool → World → Prop
  /-- All are run, and none ends the command. -/
  | through {bs : List Bool} {w' : World} :
    w.InTurn (Passes j s) es bs w' → Course j s w es (.ok (bs.all id)) w'
  /-- Some are run, and the one after them ends the command. -/
  | stopped {before after : List Value} {e : Value} {bs : List Bool} {w₁ w' : World}
      {r : Except RunError Bool} :
    es = before ++ e :: after → w.InTurn (Passes j s) before bs w₁ → Stops j s w₁ e r w' →
    Course j s w es (r.map (bs.all id && ·)) w'

theorem map_true_and (r : Except RunError Bool) : r.map (true && ·) = r := by
  cases r <;> rfl

theorem map_and_map (b b' : Bool) (r : Except RunError Bool) :
    (r.map (b' && ·)).map (b && ·) = r.map ((b && b') && ·) := by
  cases r with
  | error x => rfl
  | ok b'' => exact congrArg Except.ok (Bool.and_assoc b b' b'').symm

namespace Course

theorem nil : Course j s w [] r w' ↔ r = .ok true ∧ w' = w := by
  constructor
  · intro course
    cases course with
    | through passes =>
      cases passes
      exact ⟨rfl, rfl⟩
    | stopped split => simp at split
  · rintro ⟨rfl, rfl⟩
    exact .through .nil

theorem cons : Course j s w (e :: es) r w' ↔ Stops j s w e r w' ∨
    ∃ b w₁ r', Passes j s w e b w₁ ∧ Course j s w₁ es r' w' ∧ r = r'.map (b && ·) := by
  constructor
  · intro course
    cases course with
    | through passes =>
      cases passes with
      | cons first others => exact .inr ⟨_, _, _, first, .through others, rfl⟩
    | @stopped before after e' bs w₂ _ r' split passes stops =>
      cases passes with
      | nil =>
        obtain ⟨rfl, rfl⟩ := List.cons.inj split
        refine .inl ?_
        rwa [List.all_nil, map_true_and]
      | cons first others =>
        obtain ⟨rfl, rfl⟩ := List.cons.inj split
        exact .inr ⟨_, _, _, first, .stopped rfl others stops, (map_and_map _ _ _).symm⟩
  · rintro (stops | ⟨b, w₁, r', first, course, rfl⟩)
    · rw [← map_true_and r]
      exact .stopped (List.nil_append _).symm .nil stops
    · cases course with
      | through passes => exact .through (.cons first passes)
      | stopped split passes stops =>
        rw [map_and_map, split]
        exact .stopped (List.cons_append ..).symm (.cons first passes) stops

end Course

theorem runEntries_eq_iff : (runEntries j es).run s w = (r, w') ↔ Course j s w es r w' := by
  induction es generalizing w r with
  | nil =>
    rw [Course.nil, runEntries, Action.run_pure, Prod.mk.injEq]
    exact and_congr eq_comm eq_comm
  | cons e es ih =>
    rw [runEntries_cons_iff, Course.cons]
    simp only [ih]

/-! ## Commands -/

/-- In the world `w` the template of a command is rendered to a value, and the world `w'` is left once
the journal says so. -/
def Renders (j : Job) (scope : Bindings) (s : Setting) (w : World) (v : Value) (w' : World) : Prop :=
  ∃ w₁, (Template.render j.command.command scope).run s
      (w.noted (.rendering s.file.path j.command.command)) = (.ok v, w₁) ∧
    w' = w₁.noted (.rendered s.file.path v)

/-- A template without effects leaves nothing but the notes on its rendering. -/
theorem renders_of_quiet {v : Value}
    (quiet : ∀ name ∈ Template.calls j.command.command, name ∉ Helper.effects)
    (value : ((Template.render j.command.command scope).run s
      (w.noted (.rendering s.file.path j.command.command))).1 = .ok v) :
    Renders j scope s w v
      ((w.noted (.rendering s.file.path j.command.command)).noted (.rendered s.file.path v)) :=
  ⟨_, Prod.ext value (Template.render_leaves_world quiet scope s _), rfl⟩

theorem run_of_renders {v : Value} (renders : Renders j scope s w v w₁) :
    (run j scope).run s w = (runEntries j (entries v)).run s w₁ := by
  obtain ⟨w₂, rendered, rfl⟩ := renders
  rw [run, Action.run_setting_bind, Action.run_record_bind, Action.run_bind, Action.run_mapError,
    Evaluator.render_standard, rendered]
  rfl

/-- A command fails because its template cannot be rendered, or the entries of the value it is rendered
to are gone through. -/
theorem run_eq_iff : (run j scope).run s w = (r, w') ↔
    (∃ x, (Template.render j.command.command scope).run s
        (w.noted (.rendering s.file.path j.command.command)) = (.error x, w') ∧
      r = .error (.evaluation x)) ∨
    ∃ v w₁, Renders j scope s w v w₁ ∧ Course j s w₁ (entries v) r w' := by
  constructor
  · intro h
    rcases run_cases h with failed | ⟨v, w₁, rendered, ran⟩
    · exact .inl failed
    · exact .inr ⟨v, _, ⟨w₁, rendered, rfl⟩, runEntries_eq_iff.mp ran⟩
  · rintro (⟨x, failed, rfl⟩ | ⟨v, w₁, renders, course⟩)
    · rw [run, Action.run_setting_bind, Action.run_record_bind, Action.run_bind, Action.run_mapError,
        Evaluator.render_standard, failed]
      rfl
    · rw [run_of_renders renders]
      exact runEntries_eq_iff.mpr course

/-! ## Commands with other templates -/

/-- A job with another template for its command. -/
def Job.withTemplate (j : Job) (template : String) : Job :=
  { j with command := { j.command with command := template } }

/-- The same event, or the rendering of templates that may differ, to values with the same entries. -/
inductive UpToTemplate : Event → Event → Prop
  | same (event : Event) : UpToTemplate event event
  | rendering (file : Path) (template template' : String) :
    UpToTemplate (.rendering file template) (.rendering file template')
  | rendered (file : Path) {v v' : Value} :
    entries v' = entries v → UpToTemplate (.rendered file v) (.rendered file v')

instance : Std.Refl UpToTemplate := ⟨.same⟩

theorem UpToTemplate.text_eq {event event' : Event} (h : UpToTemplate event event') :
    event'.text = event.text := by
  cases h <;> rfl

/-- Nothing but the rendering depends on the template of a command. -/
theorem Job.like_withTemplate (j : Job) (template : String) :
    j.Like UpToTemplate (j.withTemplate template) where
  label := rfl
  exit := rfl
  dryCommand _ _ := .same _
  dryBoolean _ := .same _

/-- Commands that only differ in their templates, and whose templates were rendered with the same
effects to values with the same entries, do the same. -/
theorem run_of_same_entries {template : String} {scope' : Bindings} {w₀ w₀' w₁' : World}
    {v v' : Value} (renders : Renders j scope s w₀ v w₁)
    (renders' : Renders (j.withTemplate template) scope' s w₀' v' w₁')
    (beside : w₁.Beside UpToTemplate w₁') (same : entries v' = entries v) :
    ((run (j.withTemplate template) scope').run s w₀').1 = ((run j scope).run s w₀).1 ∧
      ((run j scope).run s w₀).2.Beside UpToTemplate
        ((run (j.withTemplate template) scope').run s w₀').2 := by
  rw [run_of_renders renders, run_of_renders renders', same]
  obtain ⟨result, after⟩ := runEntries_lockstep (E := Eq) (s := s) (j.like_withTemplate template)
    (entries v) w₁ w₁' beside
  exact ⟨result.eq, after⟩

/-- **How far a command is run.** A command fails if its template cannot be rendered. Otherwise the
entries of the value it is rendered to are run in order, up to the first that is neither a truth value
nor a command line, that raises an error, that fails while files are halted on errors, or after which
the file is halted, and up to the end if there is none; the result is the error of that entry, or
whether all entries that were run have succeeded. The entries of a list are those of its items, so it
does not matter how they are nested: two commands that only differ in their templates and whose
templates were rendered with the same effects to values with the same entries have the same result and
leave the same session, the same files and the same output, by events that only differ in what was
rendered. -/
theorem run_course (j : Job) (scope : Bindings) (s : Setting) (w : World) :
    (∀ r w', (run j scope).run s w = (r, w') ↔
      (∃ x, (Template.render j.command.command scope).run s
          (w.noted (.rendering s.file.path j.command.command)) = (.error x, w') ∧
        r = .error (.evaluation x)) ∨
      ∃ v w₁, Renders j scope s w v w₁ ∧ Course j s w₁ (entries v) r w') ∧
    (∀ items, entries (.list items) = items.flatMap entries) ∧
    (∀ v, (∀ items, v ≠ .list items) → entries v = if v.isBlank then [] else [v]) ∧
    ∀ template scope' w₀ v v' w₁ w₁', Renders j scope s w v w₁ →
      Renders (j.withTemplate template) scope' s w₀ v' w₁' → w₁.Beside UpToTemplate w₁' →
      entries v' = entries v →
      let (r, w') := (run j scope).run s w
      let (r', w'') := (run (j.withTemplate template) scope').run s w₀
      r' = r ∧ w'.Beside UpToTemplate w'' ∧ w''.transcript = w'.transcript := by
  refine ⟨fun r w' => run_eq_iff, entries_list, fun v => entries_of_leaf, ?_⟩
  intro template scope' w₀ v v' w₁ w₁' renders renders' beside same
  obtain ⟨result, after⟩ := run_of_same_entries renders renders' beside same
  exact ⟨result, after, after.transcript_eq fun _ _ h => h.text_eq⟩

/-- Two nestings of the same entries. The check of the second entry halts the file, so the third one is
run in neither. -/
theorem run_course_haltingCheck :
    let s := Setting.ofDocument "doc.tex" true
    let j : Job := ⟨{ identifier := "nest" },
      { command := "@\x7b [true, [getCommand('ls'), [getCommand('rm')]]] \x7d"
        exit := some "halt(3); value == 0" }, .none⟩
    let other := "@\x7b [[[' ', true], getCommand('ls')], [], getCommand('rm')] \x7d"
    let (r, w) := (run j []).run s {}
    let (r', w') := (run (j.withTemplate other) []).run s {}
    (∃ v w₁, Renders j [] s {} v w₁ ∧ Course j s w₁ (entries v) (.ok true) w) ∧ r = .ok true ∧
      w.journal.filter Event.isLaunch = [.launched .command s.file.path ⟨["ls"], none⟩ ⟨"/"⟩] ∧
      r' = r ∧ w'.transcript = w.transcript := by
  intro s j other
  let v : Value := .list [.bool true, .list [.command ⟨["ls"], none⟩, .list [.command ⟨["rm"], none⟩]]]
  let v' : Value := .list [.list [.list [.str " ", .bool true], .command ⟨["ls"], none⟩], .list [],
    .command ⟨["rm"], none⟩]
  have renders : Renders j [] s {} v _ := renders_of_quiet (by decide +kernel) (by decide +kernel)
  have renders' : Renders (j.withTemplate other) [] s {} v' _ :=
    renders_of_quiet (by decide +kernel) (by decide +kernel)
  have flattened : entries v' = entries v := by decide
  obtain ⟨outcome, -, -, same⟩ := run_course j [] s {}
  have ⟨ran, launches⟩ : ((run j []).run s {}).1 = .ok true ∧
      ((run j []).run s {}).2.journal.filter Event.isLaunch =
        [.launched .command s.file.path ⟨["ls"], none⟩ ⟨"/"⟩] := by decide +kernel
  have alike := same _ _ _ _ _ _ _ renders renders'
    ⟨rfl, rfl, .cons (.rendered _ flattened) (.cons (.rendering _ _ _) .nil)⟩ flattened
  refine ⟨?_, ran, launches, alike.1, alike.2.2⟩
  rcases (outcome _ _).mp (Prod.ext ran rfl) with ⟨x, -, impossible⟩ | course
  · cases impossible
  · exact course

end Command

end DirectiveRunner
