import DirectiveRunner.Proofs.File
/-!
# When commands start processes

Whether a file is halted is asked before a command is begun and after each of its entries, but not
between the rendering of its template and its first entry. So there is one way in which a process is
started for a file that is halted already: the rendering halts the file and yields, as its first
entry, a command line. `PromptlyStarted` says that everything else is in order, and is closed under
putting runs together; `launches_unhalted_iff` states exactly when no process is started for a halted
file.
-/

namespace DirectiveRunner

/-- Whether the first entry of a rendered command starts a process. -/
def Command.startsFirst (o : Options) (v : Value) : Bool :=
  (entries v).head?.any (·.startsProcess o)

/-! ## The order of events -/

/-- Whether an event is neither a step in the rendering of a command nor the start of a process for
one. -/
def Event.isIdle : Event → Bool
  | .launched .command _ _ _ | .rendering _ _ | .rendered _ _ => false
  | _ => true

theorem Event.isIdle_of_byExpression {file : Path} {e : Event} (h : e.byExpression file) :
    e.isIdle = true := by
  unfold byExpression at h
  split at h <;> simp_all [isIdle]

/-- In a run by some events, commands are only begun for files that are not halted, and a process is
started for a halted file only as the first entry of a command that was just rendered. -/
structure PromptlyStarted (o : Options) (code : Path → Option Int64) (events : List Event) : Prop where
  /-- No command is begun for a halted file. -/
  begun {before after : List Event} {f : Path} {template : String} :
    events = before ++ .rendering f template :: after → haltCodeAfter f (code f) before = none
  /-- What is started for a halted file is the first entry of a command. -/
  late {before after : List Event} {f : Path} {line : CommandLine} {directory : Path} :
    events = before ++ .launched .command f line directory :: after →
    haltCodeAfter f (code f) before ≠ none →
    ∃ earlier v notice, before = earlier ++ [.rendered f v, .shown notice] ∧
      Command.startsFirst o v = true
  /-- The first entry of a command is started, if it is one to be started. -/
  first {before after : List Event} {f : Path} {v : Value} :
    events = before ++ .rendered f v :: after → Command.startsFirst o v = true →
    ∃ notice line directory after',
      after = .shown notice :: .launched .command f line directory :: after'

namespace PromptlyStarted

variable {o : Options} {code : Path → Option Int64} {es es' : List Event} {f : Path}

theorem of_idle (h : ∀ e ∈ es, e.isIdle = true) : PromptlyStarted o code es := by
  have absent {before after : List Event} {e : Event} (split : es = before ++ e :: after) :
      e.isIdle = true := h e (split ▸ List.mem_append_right _ List.mem_cons_self)
  constructor
  · intro _ _ _ _ split
    cases absent split
  · intro _ _ _ _ _ split
    cases absent split
  · intro _ _ _ _ split
    cases absent split

theorem append (h : PromptlyStarted o code es)
    (h' : PromptlyStarted o (fun f => haltCodeAfter f (code f) es) es') :
    PromptlyStarted o code (es ++ es') where
  begun split := by
    rcases append_split split with ⟨rest, inFirst, _⟩ | ⟨rest, rfl, inSecond⟩
    · exact h.begun inFirst
    · rw [haltCodeAfter_append]
      exact h'.begun inSecond
  late split halted := by
    rcases append_split split with ⟨rest, inFirst, _⟩ | ⟨rest, rfl, inSecond⟩
    · exact h.late inFirst halted
    · rw [haltCodeAfter_append] at halted
      obtain ⟨earlier, v, notice, rfl, starts⟩ := h'.late inSecond halted
      exact ⟨es ++ earlier, v, notice, by simp, starts⟩
  first split starts := by
    rcases append_split split with ⟨rest, inFirst, rfl⟩ | ⟨rest, _, inSecond⟩
    · obtain ⟨notice, line, directory, after', rfl⟩ := h.first inFirst starts
      exact ⟨notice, line, directory, after' ++ es', rfl⟩
    · exact h'.first inSecond starts

/-- One event that is no start and no rendering out of order. -/
theorem of_single {e : Event} (begun : ∀ f template, e = .rendering f template → code f = none)
    (late : ∀ f line directory, e = .launched .command f line directory → code f = none)
    (first : ∀ f v, e = .rendered f v → Command.startsFirst o v = false) :
    PromptlyStarted o code [e] where
  begun split := by
    obtain ⟨rfl, same, _⟩ := singleton_split split
    exact begun _ _ same.symm
  late split halted := by
    obtain ⟨rfl, same, _⟩ := singleton_split split
    exact absurd (late _ _ _ same.symm) halted
  first split starts := by
    obtain ⟨rfl, same, _⟩ := singleton_split split
    rw [first _ _ same.symm] at starts
    cases starts

/-- Beginning a command for a file that is not halted. -/
theorem of_rendering (running : code f = none) (template : String) :
    PromptlyStarted o code [.rendering f template] :=
  of_single (fun _ _ same => by cases same; exact running) nofun nofun

/-- Starting a process for a file that is not halted. -/
theorem of_launched (running : code f = none) (line : CommandLine) (directory : Path) :
    PromptlyStarted o code [.launched .command f line directory] :=
  of_single nofun (fun _ _ _ same => by cases same; exact running) nofun

/-- Rendering a command whose first entry starts no process. -/
theorem of_rendered {v : Value} (idle : Command.startsFirst o v = false) :
    PromptlyStarted o code [.rendered f v] :=
  of_single nofun nofun fun _ _ same => by cases same; exact idle

/-- Rendering a command and starting the process of its first entry. -/
theorem of_rendered_launched {v : Value} (starts : Command.startsFirst o v = true)
    (notice : Notice) (line : CommandLine) (directory : Path) :
    PromptlyStarted o code
      [.rendered f v, .shown notice, .launched .command f line directory] where
  begun {before _ _ _} split := by
    rcases before with _ | ⟨_, _ | ⟨_, _ | _⟩⟩ <;> simp at split
  late {before _ _ _ _} split _ := by
    rcases before with _ | ⟨_, _ | ⟨_, _ | _⟩⟩ <;> simp at split
    obtain ⟨rfl, rfl, ⟨rfl, rfl, rfl⟩, rfl⟩ := split
    exact ⟨[], v, notice, rfl, starts⟩
  first {before _ _ _} split _ := by
    rcases before with _ | ⟨_, _ | ⟨_, _ | _⟩⟩ <;> simp at split
    obtain ⟨⟨rfl, rfl⟩, rfl⟩ := split
    exact ⟨notice, line, directory, [], rfl⟩

end PromptlyStarted

/-- `w'` comes of `w` by a run in which processes are started promptly. -/
def World.Starts (o : Options) (w w' : World) : Prop :=
  ∃ events, w.Leads events w' ∧ PromptlyStarted o w.session.haltCode? events

instance (o : Options) : IsPreorder World (World.Starts o) where
  refl w := ⟨[], .refl w, .of_idle (by simp)⟩
  trans w w₁ w₂ := by
    rintro ⟨es, lead, prompt⟩ ⟨es', lead', prompt'⟩
    refine ⟨es ++ es', lead.trans lead', prompt.append ?_⟩
    have codes : w₁.session.haltCode? = fun f => haltCodeAfter f (w.session.haltCode? f) es :=
      funext lead.haltCode?
    rwa [codes] at prompt'

theorem World.Does.starts {w w' : World} (h : w.Does (Event.isIdle ·) w') (o : Options) :
    w.Starts o w' := by
  obtain ⟨es, lead, idle⟩ := h
  exact ⟨es, lead, .of_idle idle⟩

/-! ## Entries -/

namespace Command

variable {s : Setting} {w w' : World}

theorem keptByEntries_idle : KeptByEntries (World.Does (Event.isIdle ·)) s :=
  keptByEntries_does (fun _ => Event.isIdle_of_byExpression) (fun _ => rfl) fun _ _ => rfl

/-- An entry that starts no process only does idle things. -/
theorem runEntry_idle (j : Job) {v : Value} (h : v.startsProcess s.options = false) :
    Action.Keeps (World.Does (Event.isIdle ·)) s (runEntry j v) :=
  runEntry_keeps keptByEntries_idle j fun starts => by simp [h] at starts

theorem run_launch {line : CommandLine} {program : String} {arguments : List String}
    (given : line.arguments = program :: arguments) (directory : Path) (s : Setting) (w : World) :
    (launch line directory).run s w =
      (conclude line (s.host.launch { program, arguments, directory, timeout := s.options.timeout }
        w.files)).run s (w.noted (.launched .command s.file.path line directory)) := by
  rw [launch, Action.run_setting_bind]
  simp only [given]
  rw [Action.run_record_bind, Action.run_world_bind]
  rfl

/-- After a process was announced and started, what is left is what it leaves and how it is judged. -/
theorem spawn_starts {R : World → World → Prop} [IsPreorder World R] (kept : KeptByEntries R s)
    (wet : s.options.dryRun = false) (j : Job) {line : CommandLine} (given : line.arguments ≠ [])
    (w : World) :
    R ((w.noted (.shown (.entryOpened j.label s.options.verbose))).noted (.launched .command
        s.file.path line (line.directory.getD s.options.workingDirectory)))
      ((spawn j line).run s w).2 := by
  obtain ⟨program, arguments, given⟩ := List.exists_cons_of_ne_nil given
  rw [spawn, Action.run_setting_bind]
  simp only [wet, Bool.false_eq_true, if_false]
  rw [Action.run_report_bind,
    Action.run_bind_congr (Action.run_onFailure_congr (run_launch given _ s _) _)]
  have concluded (outcome : Outcome) : Action.Keeps R s (conclude line outcome) :=
    conclude_keeps kept.files (fun w _ => kept.shown w _) line outcome
  refine Action.Keeps.bind (.onFailure (concluded _) (kept.report _)) (fun code => ?_) _
  refine .bind (judge_keeps kept.calls (kept.judging wet) j code) fun _ => ?_
  exact .bind (kept.report _) fun _ => .pure _

/-- An entry that starts a process does so right after it was announced. -/
theorem runEntry_starts (j : Job) {v : Value} (h : v.startsProcess s.options = true) (w : World) :
    ∃ notice line directory,
      World.Does (Event.isIdle ·)
        ((w.noted (.shown notice)).noted (.launched .command s.file.path line directory))
        ((runEntry j v).run s w).2 := by
  cases v with
  | command line =>
    obtain ⟨wet, given⟩ : s.options.dryRun = false ∧ line.arguments ≠ [] := by
      simpa [Value.startsProcess] using h
    exact ⟨_, line, _, spawn_starts keptByEntries_idle wet j given w⟩
  | _ => cases h

/-- The first entry after the rendering of a command. -/
theorem runEntry_first (j : Job) {v e : Value} {es : List Value} (h : entries v = e :: es)
    (w : World) :
    w.Starts s.options
      ((runEntry j e).run s (w.noted (.rendered s.file.path v))).2 := by
  have lead := w.leads_noted (.rendered s.file.path v) nofun
  cases starts : e.startsProcess s.options with
  | false =>
    obtain ⟨events, lead', idle⟩ := runEntry_idle j starts (w.noted (.rendered s.file.path v))
    have idleFirst : startsFirst s.options v = false := by simp [startsFirst, h, starts]
    exact ⟨_, lead.trans lead', (PromptlyStarted.of_rendered idleFirst).append (.of_idle idle)⟩
  | true =>
    obtain ⟨notice, line, directory, events, lead', idle⟩ :=
      runEntry_starts j starts (w.noted (.rendered s.file.path v))
    have first : startsFirst s.options v = true := by simp [startsFirst, h, starts]
    have shown := World.leads_noted (w.noted (.rendered s.file.path v)) (.shown notice) nofun
    have launched := World.leads_noted ((w.noted (.rendered s.file.path v)).noted (.shown notice))
      (.launched .command s.file.path line directory) nofun
    exact ⟨_, ((lead.trans shown).trans launched).trans lead',
      (PromptlyStarted.of_rendered_launched first notice line directory).append (.of_idle idle)⟩

/-- An entry that is run while the file is not halted. -/
theorem runEntry_prompt (j : Job) (e : Value) {w : World}
    (running : w.session.haltCode? s.file.path = none) :
    w.Starts s.options ((runEntry j e).run s w).2 := by
  cases starts : e.startsProcess s.options with
  | false => exact (runEntry_idle j starts w).starts _
  | true =>
    obtain ⟨notice, line, directory, idle⟩ := runEntry_starts j starts w
    have shown : w.Does (Event.isIdle ·) (w.noted (.shown notice)) := .noted rfl nofun
    have launched : (w.noted (.shown notice)).Starts s.options
        ((w.noted (.shown notice)).noted (.launched .command s.file.path line directory)) :=
      ⟨_, World.leads_noted _ (.launched .command s.file.path line directory) nofun,
        .of_launched running line directory⟩
    exact trans_of _ (trans_of _ (shown.starts _) launched) (idle.starts _)

/-- After its first entry, entries are only run while the file is not halted. -/
theorem runEntries_cons_starts {j : Job} {e : Value} {es : List Value} {w₀ : World}
    (first : w₀.Starts s.options ((runEntry j e).run s w).2)
    (others : ∀ w₁ : World, w₁.session.haltCode? s.file.path = none →
      w₁.Starts s.options ((runEntries j es).run s w₁).2) :
    w₀.Starts s.options ((runEntries j (e :: es)).run s w).2 := by
  rcases ran : (runEntries j (e :: es)).run s w with ⟨r, w'⟩
  rcases runEntries_cons_cases ran with ⟨_, failed, _⟩ | ⟨success, w₁, entry, h⟩
  · rwa [failed] at first
  rw [entry] at first
  have judged : w₁.Does (Event.isIdle ·) (w₁.noted (.judged s.file.path e success)) :=
    .noted rfl nofun
  have sofar := trans_of _ first (judged.starts s.options)
  rcases h with ⟨_, rfl, _⟩ | ⟨_, running, r', rest, _⟩
  · exact sofar
  · have last := others (w₁.noted (.judged s.file.path e success)) running
    rw [rest] at last
    exact trans_of _ sofar last

/-- Entries that are run while the file is not halted. -/
theorem runEntries_starts (j : Job) : ∀ (es : List Value) (w : World),
    w.session.haltCode? s.file.path = none → w.Starts s.options ((runEntries j es).run s w).2
  | [], w, _ => refl_of _ w
  | e :: es, _, running =>
    runEntries_cons_starts (runEntry_prompt j e running) (runEntries_starts j es)

/-- A command that is run while the file is not halted. -/
theorem run_starts (j : Job) (scope : Bindings) {w : World}
    (running : w.session.haltCode? s.file.path = none) :
    w.Starts s.options ((run j scope).run s w).2 := by
  rcases ran : (run j scope).run s w with ⟨r, w'⟩
  have begun : w.Starts s.options (w.noted (.rendering s.file.path j.command.command)) :=
    ⟨_, w.leads_noted (.rendering s.file.path j.command.command) nofun, .of_rendering running _⟩
  have render {x : Except EvalError Value} {w₁ : World}
      (h : (Template.render j.command.command scope).run s
        (w.noted (.rendering s.file.path j.command.command)) = (x, w₁)) : w.Starts s.options w₁ :=
    trans_of _ begun
      (((Template.render_keeps keptByEntries_idle.calls _ scope).of_run h).starts s.options)
  rcases run_cases ran with ⟨_, failed, _⟩ | ⟨v, w₁, rendered, run⟩
  · exact render failed
  refine trans_of _ (render rendered) ?_
  -- whatever the rendering has done to the file, the first entry is run
  rcases first : entries v with _ | ⟨e, es⟩
  · rw [first] at run
    cases run
    exact ⟨_, w₁.leads_noted (.rendered s.file.path v) nofun,
      .of_rendered (by simp [startsFirst, first])⟩
  · rw [first] at run
    have started : w₁.Starts s.options
        ((runEntries j (e :: es)).run s (w₁.noted (.rendered s.file.path v))).2 :=
      runEntries_cons_starts (runEntry_first j first w₁) (runEntries_starts j es)
    rwa [run] at started

end Command

/-! ## Whole runs -/

namespace Execution

variable {s : Setting}

theorem keptByDirectives_starts : KeptByDirectives (World.Starts s.options) s where
  calls name args := (Command.keptByEntries_idle.calls name args).mono fun _ _ h => h.starts _
  noted w e h := by
    have idle : e.isIdle = true := by cases e <;> first | rfl | exact h.elim
    exact (World.Does.noted idle fun _ _ same => by simp [same, Event.isProgress] at h).starts _
  halted w := ⟨_, w.leads_halt s.file.path _, .of_idle (by simp [Event.isIdle])⟩
  ran j scope _ running := Command.run_starts j scope running

theorem executeFiles_starts (files : List ProjectFile) :
    Action.Keeps (World.Starts s.options) s (executeFiles files) := by
  have idle {w : World} {e : Event} (h : e.isIdle = true) (hn : ∀ file c, e ≠ .halted file c) :
      w.Starts s.options (w.noted e) := (World.Does.noted h hn : w.Does (Event.isIdle ·) _).starts _
  refine executeFilesFrom_keeps (fun w n => idle rfl nofun) (fun f d => ?_) files _
  exact execute_keeps (s := { s with file := f }) keptByDirectives_starts
    (fun w _ => idle rfl nofun) d

/-- **When no process is started for a halted file.** In every run no command is begun for a file that
is halted. A command starts no process for a file halted at that time exactly if, whenever the value of
a rendered template starts a process with its first entry, the rendering has not halted the file. -/
theorem launches_unhalted_iff (s : Setting) (w : World) (files : List ProjectFile) :
    ∃ events, w.Leads events ((executeFiles files).run s w).2 ∧
      (∀ before f template after, events = before ++ .rendering f template :: after →
        haltCodeAfter f (w.session.haltCode? f) before = none) ∧
      ∀ f,
        (∀ before line directory after,
          events = before ++ .launched .command f line directory :: after →
            haltCodeAfter f (w.session.haltCode? f) before = none) ↔
        (∀ before v after, events = before ++ .rendered f v :: after →
          Command.startsFirst s.options v = true →
            haltCodeAfter f (w.session.haltCode? f) before = none) := by
  obtain ⟨events, lead, prompt⟩ := executeFiles_starts (s := s) files w
  refine ⟨events, lead, fun _ _ _ _ => prompt.begun, fun f => ⟨?_, ?_⟩⟩
  · intro unhalted before v after split starts
    obtain ⟨notice, line, directory, after', rfl⟩ := prompt.first split starts
    have started := unhalted (before ++ [.rendered f v, .shown notice]) line directory after'
      (by simp [split])
    rwa [haltCodeAfter_append] at started
  · intro unhalted before line directory after split
    by_cases running : haltCodeAfter f (w.session.haltCode? f) before = none
    · exact running
    obtain ⟨earlier, v, notice, rfl, starts⟩ := prompt.late split running
    have rendered := unhalted earlier v _ (by rw [split, List.append_assoc]; rfl) starts
    -- between the end of the rendering and the start nothing is halted
    rw [haltCodeAfter_append, rendered]
    rfl

/-- A world with a file whose only directive halts it in the template of a command line. -/
def haltedByRendering : World where
  files := .ofTexts
    [("doc.tex", "% arara: stop\n"),
      ("stop.yaml",
        "identifier: stop\ncommands:\n- command: \"@\x7b halt(); getCommand('true') \x7d\"\n")]

/-- A rendering that halts the file does not keep its first entry from being started. -/
theorem haltedByRendering_launched :
    ∃ before line directory after,
      ((executeFiles [.ofName "doc.tex"]).run (.ofDocument "doc.tex" true)
          haltedByRendering).2.journal.reverse =
        before ++ .launched .command ⟨"/doc.tex"⟩ line directory :: after ∧
      haltCodeAfter ⟨"/doc.tex"⟩ (haltedByRendering.session.haltCode? ⟨"/doc.tex"⟩) before =
        some 0 := by
  let events := ((executeFiles [.ofName "doc.tex"]).run (.ofDocument "doc.tex" true)
    haltedByRendering).2.journal.reverse
  exact ⟨events.take 8, ⟨["true"], none⟩, ⟨"/"⟩, events.drop 9, by decide +kernel,
    by decide +kernel⟩

end Execution

end DirectiveRunner
