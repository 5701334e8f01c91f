import DirectiveRunner.Proofs.File
/-!
# When failures go unnoticed

A run that ends well may still have seen an entry fail, in one way only: files are not halted on
errors, and the directive in which the entry failed has halted its file with code 0, which decides on
its status. So the directive was the last one of its file. To see that nothing later hides a failure,
one has to know that a halted file is left alone from then on (`World.Seals`).
-/

namespace DirectiveRunner

/-! ## Files that are left alone -/

/-- Whether an event neither halts a file nor executes a directive for it. -/
def Event.spares (file : Path) : Event → Prop
  | .halted f _ | .executing f _ => f.components ≠ file.components
  | _ => True

theorem Event.spares_of_byDirective {f file : Path} (h : f.components ≠ file.components) {e : Event}
    (he : e.byDirective f) : e.spares file := by
  cases e with
  | halted g c =>
    obtain rfl : g = f := he
    exact h
  | executing g name => exact he.elim
  | _ => trivial

/-- Files halted in `w` are left alone on the way to `w'`. -/
def World.Seals (w w' : World) : Prop :=
  ∀ file, w.session.haltCode? file ≠ none → w.Does (Event.spares file) w'

theorem World.Does.haltCode?_eq {w w' : World} {file : Path} (h : w.Does (Event.spares file) w') :
    w'.session.haltCode? file = w.session.haltCode? file := by
  obtain ⟨events, lead, spared⟩ := h
  rw [lead.haltCode?]
  exact haltCodeAfter_eq_self (fun other c halted => spared _ halted) _

instance : IsPreorder World World.Seals where
  refl w _ _ := refl_of _ w
  trans w w₁ w₂ h h' file halted := by
    have spared := h file halted
    exact trans_of _ spared (h' file (by rwa [spared.haltCode?_eq]))

namespace Execution

variable {s : Setting} {w w₁ w' : World} {st : Status}

/-- While another file is processed, a file is left alone. -/
theorem execute_spares {file : Path} (h : s.file.path.components ≠ file.components) (d : Directive) :
    Action.Keeps (World.Does (Event.spares file)) s (execute d) := by
  have kept : KeptByDirectives (World.Does (Event.spares file)) s :=
    keptByDirectives_does.mono fun _ _ does => does.mono fun _ => Event.spares_of_byDirective h
  exact execute_keeps kept (fun w name => .noted h nofun) d

theorem execute_seals (d : Directive) : Action.Keeps World.Seals s (execute d) := by
  intro w file halted
  by_cases same : s.file.path.components = file.components
  · -- the current file is the halted one, so that nothing is done
    have current : w.session.haltCode? s.file.path = w.session.haltCode? file := by
      simp [Session.haltCode?, same]
    obtain ⟨code, hc⟩ := Option.ne_none_iff_exists'.mp halted
    rw [execute_of_halted (current.trans hc)]
    exact refl_of _ w
  · exact execute_spares same d w

theorem shown_seals (w : World) (n : Notice) : w.Seals (w.noted (.shown n)) :=
  fun _ _ => .noted trivial nofun

/-! ## Failures -/

/-- Whenever an entry failed among some events, files are not halted on errors, its file is halted with
code 0 in the end, and no directive was executed for it any more. -/
def Excused (s : Setting) (events : List Event) (w' : World) : Prop :=
  ∀ before f entry after, events = before ++ .judged f entry false :: after →
    s.options.haltOnErrors = false ∧ w'.session.haltCode? f = some 0 ∧
      ∀ g name, .executing g name ∈ after → g.components ≠ f.components

theorem Excused.of_passed {events : List Event} (h : events.any Event.failsEntry = false)
    (s : Setting) (w' : World) : Excused s events w' := by
  intro before f entry after split
  simp [split, Event.failsEntry] at h

/-- What was excused stays excused if halted files are left alone. -/
theorem Excused.append {es es' : List Event} (h : Excused s es w₁) (lead : w₁.Leads es' w')
    (seals : w₁.Seals w') (h' : Excused s es' w') : Excused s (es ++ es') w' := by
  intro before f entry after split
  rcases append_split split with ⟨rest, inFirst, rfl⟩ | ⟨rest, _, inSecond⟩
  · obtain ⟨off, halted, last⟩ := h _ _ _ _ inFirst
    have spared := seals f (by simp [halted])
    refine ⟨off, by rw [spared.haltCode?_eq, halted], fun g name hg => ?_⟩
    -- what follows the failure ends its part, and then comes a part that spares the file
    obtain ⟨es'', lead', alone⟩ := spared
    obtain rfl := lead.unique lead'
    rcases List.mem_append.mp hg with hg | hg
    · exact last g name hg
    · exact alone _ hg
  · exact h' _ _ _ _ inSecond

/-- The failures of a directive that ends well are excused by its halt. -/
theorem execute_excused {d : Directive} (h : (execute d).run s w = (.ok .processing, w')) :
    ∃ events, w.Leads events w' ∧ Excused s events w' := by
  rcases execute_ok_cases h with ⟨_, _, rfl, _⟩ | ⟨_, ruleFile, r, _, _, executed⟩
  · exact ⟨[], .refl _, .of_passed rfl s _⟩
  obtain ⟨events, lead, ended⟩ := executeRule_accounts executed
  obtain ⟨events', lead', does⟩ := (executeRule_keeps keptByDirectives_does r d).of_run executed
  obtain rfl := lead.unique lead'
  have begun := w.leads_noted (.executing s.file.path d.identifier) nofun
  refine ⟨_, begun.trans lead, ?_⟩
  intro before f entry after split
  rcases append_split split with ⟨rest, impossible, _⟩ | ⟨rest, _, inEvents⟩
  · obtain ⟨_, impossible, _⟩ := singleton_split impossible
    cases impossible
  -- the failed entry makes its command fail, which the status must not show
  have judged : .judged f entry false ∈ events :=
    inEvents ▸ List.mem_append_right _ List.mem_cons_self
  obtain rfl : f = s.file.path := does _ judged
  have failed : events.any (Event.failsCommand r) = true := by
    rw [← ended.entries]
    exact List.any_eq_true.mpr ⟨_, judged, rfl⟩
  have off : s.options.haltOnErrors = false := by
    by_cases on : s.options.haltOnErrors = true
    · cases ended.failed on failed
    · simpa using on
  refine ⟨off, ?_, fun g name hg => ?_⟩
  · rcases hw : w'.session.haltCode? s.file.path with _ | code
    · -- without a halt the status would be that of the failed command
      have impossible := ended.running hw
      rw [statusAfter, if_pos failed] at impossible
      cases impossible
    · rw [Status.ofHaltCode_eq_processing.mp (ended.halted code hw).symm]
  · have impossible := does (.executing g name) (by simp [inEvents, hg])
    exact impossible.elim

/-- The failures of several directives that end well are excused by the halt of the last one. -/
theorem executeAll_excused : ∀ {ds : List Directive} {before : Status} {w : World},
    (executeAll before ds).run s w = (.ok .processing, w') →
    before = .processing ∧ ∃ events, w.Leads events w' ∧ Excused s events w'
  | [], before, w, h => by
    cases h
    exact ⟨rfl, [], .refl _, .of_passed rfl s _⟩
  | d :: ds, before, w, h => by
    obtain ⟨st, w₁, executed, h⟩ := Action.run_bind_ok h
    rw [Action.run_haltCode?_bind] at h
    split at h
    · rw [Action.run_pure, Prod.mk.injEq, Except.ok.injEq] at h
      obtain ⟨good, rfl⟩ := h
      obtain ⟨rfl, rfl⟩ := Status.max_eq_processing.mp good
      exact ⟨rfl, execute_excused executed⟩
    · have others : Action.Keeps World.Seals s _ := executeAll_keeps execute_seals ds (before.max st)
      obtain ⟨good, es', lead', excused'⟩ := executeAll_excused h
      obtain ⟨rfl, rfl⟩ := Status.max_eq_processing.mp good
      obtain ⟨es, lead, excused⟩ := execute_excused executed
      exact ⟨rfl, _, lead.trans lead', excused.append lead' (others.of_run h) excused'⟩

theorem executeCurrent_excused (h : executeCurrent.run s w = (.ok .processing, w')) :
    ∃ events, w.Leads events w' ∧ Excused s events w' := by
  rw [executeCurrent, Action.run_setting_bind, Action.run_world_bind] at h
  obtain ⟨ds, _, h⟩ := Action.run_ofExcept_bind_ok h
  rw [Action.run_report_bind] at h
  have begun := w.leads_noted (.shown (.processing s.file.name (s.file.size? w.files))) nofun
  split at h
  · cases h
    exact ⟨_, begun.trans (World.leads_noted _ (.shown (.noDirectives s.file.name)) nofun),
      .of_passed rfl s _⟩
  · have others : Action.Keeps World.Seals s _ := executeAll_keeps execute_seals ds .processing
    obtain ⟨_, es, lead, excused⟩ := executeAll_excused h
    exact ⟨_, begun.trans lead, (Excused.of_passed rfl s _).append lead (others.of_run h) excused⟩

theorem executeFilesFrom_excused : ∀ {files : List ProjectFile} {before : Status} {w : World},
    (executeFilesFrom before files).run s w = (.ok .processing, w') →
    before = .processing ∧ ∃ events, w.Leads events w' ∧ Excused s events w'
  | [], before, w, h => by
    cases h
    exact ⟨rfl, [], .refl _, .of_passed rfl s _⟩
  | f :: fs, before, w, h => by
    obtain ⟨st, w₁, processed, h⟩ := Action.run_bind_ok h
    have others : Action.Keeps World.Seals s _ :=
      executeFilesFrom_keeps shown_seals (fun _ => execute_seals) fs (before.max st)
    obtain ⟨good, es', lead', excused'⟩ := executeFilesFrom_excused h
    obtain ⟨rfl, rfl⟩ := Status.max_eq_processing.mp good
    obtain ⟨es, lead, excused⟩ := executeCurrent_excused (s := { s with file := f }) processed
    exact ⟨rfl, _, lead.trans lead', excused.append lead' (others.of_run h) excused'⟩

/-- **Failures in a run that ends well.** If a run ends well, an entry of a command can only have failed
when files are not halted on errors and its file ends up halted with code 0. The directive in which it
failed was then the last one that was executed for the file. -/
theorem executeFiles_failures {files : List ProjectFile}
    (h : (executeFiles files).run s w = (.ok .processing, w')) :
    ∃ events, w.Leads events w' ∧
      ∀ before f entry after, events = before ++ .judged f entry false :: after →
        s.options.haltOnErrors = false ∧ w'.session.haltCode? f = some 0 ∧
          ∀ g name, .executing g name ∈ after → g.components ≠ f.components :=
  (executeFilesFrom_excused h).2

/-- A world with a file whose only directive fails and then halts it with code 0. -/
def failedThenHalted : World where
  files := .ofTexts
    [("doc.tex", "% arara: check\n"),
      ("check.yaml", "identifier: check\ncommands:\n" ++
        "- command: '@\x7b false \x7d'\n- command: '@\x7b halt() \x7d'\n")]

/-- A run with a failure may end well. -/
theorem failedThenHalted_processing :
    failedThenHalted.session.haltCode? ⟨"/doc.tex"⟩ = none ∧
      ((executeFiles [.ofName "doc.tex"]).run (.ofDocument "doc.tex" false)
        failedThenHalted).1.toOption = some .processing ∧
      .judged ⟨"/doc.tex"⟩ (.bool false) false ∈
        ((executeFiles [.ofName "doc.tex"]).run (.ofDocument "doc.tex" false)
          failedThenHalted).2.journal := by
  decide +kernel

/-- Such a failure is excused by the halt of its file. -/
theorem executeFiles_failures_failedThenHalted :
    ∃ events w', (executeFiles [.ofName "doc.tex"]).run (.ofDocument "doc.tex" false)
          failedThenHalted = (.ok .processing, w') ∧
      failedThenHalted.Leads events w' ∧ .judged ⟨"/doc.tex"⟩ (.bool false) false ∈ events ∧
      w'.session.haltCode? ⟨"/doc.tex"⟩ = some 0 := by
  have run := Action.run_eq_ok (a := executeFiles [.ofName "doc.tex"]) (w := failedThenHalted)
    (s := .ofDocument "doc.tex" false) (x := .processing) (by decide +kernel)
  obtain ⟨events, lead, excused⟩ := executeFiles_failures run
  have judged : .judged ⟨"/doc.tex"⟩ (.bool false) false ∈ events := by
    have noted : .judged ⟨"/doc.tex"⟩ (.bool false) false ∈
        ((executeFiles [.ofName "doc.tex"]).run (.ofDocument "doc.tex" false)
          failedThenHalted).2.journal := by decide +kernel
    rw [lead.journal] at noted
    simpa [failedThenHalted] using noted
  obtain ⟨before, after, split⟩ := List.append_of_mem judged
  exact ⟨events, _, run, lead, judged, (excused _ _ _ _ split).2.1⟩

end Execution

end DirectiveRunner
