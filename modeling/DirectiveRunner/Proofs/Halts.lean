import DirectiveRunner.Proofs.File
/-!
# Halts belong to files

Several files share one session, and a halt must end the processing of its own file only. Every step of
a run gets the whole session, so this is a fact about all of them: whatever is done while a file is
processed halts no other file, does not take a halt back, and leaves the properties of the command line
alone (`executeFile_halts_only`).

That a step only halts the current file is seen from the events it does. That the properties stay is
not, for no event says so, and thus both are carried through the steps together (`World.Confined`).
-/

namespace DirectiveRunner

/-- Whether an event halts no file but the given one. -/
def Event.haltsAtMost (file : Path) : Event → Prop
  | .halted f _ => f = file
  | _ => True

/-- Between `w` and `w'` at most the given file was halted, and the properties are the same. -/
structure World.Confined (file : Path) (w w' : World) : Prop where
  halts : w.Does (Event.haltsAtMost file) w'
  properties : w'.session.properties = w.session.properties

instance (file : Path) : IsPreorder World (World.Confined file) where
  refl w := ⟨refl_of _ w, rfl⟩
  trans _ _ _ h h' := ⟨trans_of _ h.halts h'.halts, h'.properties.trans h.properties⟩

/-- How the halts of a run stand to those before it, if the run is for one file. -/
structure World.HaltsOnly (file : Path) (w w' : World) : Prop where
  /-- The other files are halted as before. -/
  others (other : Path) : other.components ≠ file.components →
    w'.session.haltCode? other = w.session.haltCode? other
  /-- A halt of the file is not taken back. -/
  held : w.session.haltCode? file ≠ none → w'.session.haltCode? file ≠ none
  /-- Both hold at every moment of the run and not only in the end. -/
  throughout : ∃ events, w.Leads events w' ∧ ∀ before after, events = before ++ after →
    (∀ other : Path, other.components ≠ file.components →
      haltCodeAfter other (w.session.haltCode? other) before = w.session.haltCode? other) ∧
    (haltCodeAfter file (w.session.haltCode? file) before ≠ none →
      w'.session.haltCode? file ≠ none)
  /-- The properties of the command line are the same. -/
  properties : w'.session.properties = w.session.properties

namespace World.Confined

variable {file : Path} {w w' : World}

theorem noted {e : Event} (h : ∀ f c, e ≠ .halted f c) : w.Confined file (w.noted e) where
  halts := by
    refine .noted ?_ h
    cases e with
    | halted f c => exact absurd rfl (h f c)
    | _ => trivial
  properties := rfl

theorem haltsOnly (h : w.Confined file w') : w.HaltsOnly file w' := by
  obtain ⟨⟨events, lead, atMost⟩, properties⟩ := h
  -- some of the events halt another file no more than all of them do
  have kept {some : List Event} (sub : ∀ e ∈ some, e ∈ events) {other : Path}
      (differs : other.components ≠ file.components) :
      haltCodeAfter other (w.session.haltCode? other) some = w.session.haltCode? other := by
    apply haltCodeAfter_eq_self
    intro f c halted same
    obtain rfl : f = file := atMost _ (sub _ halted)
    exact differs same.symm
  refine ⟨?_, lead.haltCode?_ne_none, ⟨events, lead, ?_⟩, properties⟩
  · intro other differs
    rw [lead.haltCode?]
    exact kept (fun _ mem => mem) differs
  · rintro before after rfl
    refine ⟨fun other => kept fun e mem => List.mem_append_left _ mem, fun halted => ?_⟩
    rw [lead.haltCode?, haltCodeAfter_append]
    exact haltCodeAfter_ne_none halted after

end World.Confined

theorem Action.Keeps.haltsOnly {ε α : Type} {s : Setting} {a : Action ε α} {file : Path}
    (h : Action.Keeps (World.Confined file) s a) : Action.Keeps (World.HaltsOnly file) s a :=
  h.mono fun _ _ => World.Confined.haltsOnly

/-! ## The steps of a run -/

section Steps

variable {s : Setting}

theorem keptByRun_confined : KeptByRun (World.Confined s.file.path) s where
  changed w cache files := ⟨⟨[], .of_eq rfl rfl, by simp⟩, rfl⟩
  halted w code := ⟨⟨_, w.leads_halt s.file.path code, by simp [Event.haltsAtMost]⟩, rfl⟩
  stored w key v := ⟨⟨[_], ⟨rfl, fun _ => rfl⟩, by simp [Event.haltsAtMost]⟩, rfl⟩
  shown w title text := .noted nofun
  noted w e note := .noted fun f c same => by simp [same, Event.isNote] at note

theorem Helper.call_confined (name : String) (args : List Value) :
    Action.Keeps (World.Confined s.file.path) s (call name args) :=
  keptByRun_confined.calls name args

theorem Command.run_confined (j : Job) (scope : Bindings) :
    Action.Keeps (World.Confined s.file.path) s (run j scope) :=
  keptByRun_confined.command j scope

namespace Execution

theorem execute_confined (d : Directive) :
    Action.Keeps (World.Confined s.file.path) s (execute d) :=
  keptByRun_confined.execute d

theorem executeFile_confined (f : ProjectFile) :
    Action.Keeps (World.Confined f.path) s (executeFile f) :=
  .withSetting (keptByRun_confined (s := { s with file := f })).executeCurrent

end Execution

end Steps

namespace Execution

/-- **Halts belong to files.** Whether a file is processed without an error or not, in whatever session:
the other files are halted as before, the file is not released from its halt, and the properties of the
command line stay. The same holds for each evaluation, for the arguments of a directive, for its
conditions, its commands and the whole of it, with the file that is being processed. -/
theorem executeFile_halts_only (s : Setting) :
    (∀ f, Action.Keeps (World.HaltsOnly f.path) s (executeFile f)) ∧
    (∀ d, Action.Keeps (World.HaltsOnly s.file.path) s (execute d)) ∧
    (∀ (e : Expr) scope, Action.Keeps (World.HaltsOnly s.file.path) s (e.eval scope)) ∧
    (∀ expression scope,
      Action.Keeps (World.HaltsOnly s.file.path) s (evaluate expression scope)) ∧
    (∀ template scope,
      Action.Keeps (World.HaltsOnly s.file.path) s (Template.render template scope)) ∧
    (∀ r d, Action.Keeps (World.HaltsOnly s.file.path) s (Binding.bind r d)) ∧
    (∀ scope c, Action.Keeps (World.HaltsOnly s.file.path) s (Condition.allows scope c)) ∧
    (∀ scope c, Action.Keeps (World.HaltsOnly s.file.path) s (Condition.repeats scope c)) ∧
    ∀ j scope, Action.Keeps (World.HaltsOnly s.file.path) s (Command.run j scope) := by
  have calls := Helper.call_confined (s := s)
  refine ⟨?_, ?_, ?_, ?_, ?_, ?_, ?_, ?_, ?_⟩
  · intro f
    exact (executeFile_confined f).haltsOnly
  · intro d
    exact (execute_confined d).haltsOnly
  · intro e scope
    exact (e.eval_keeps calls scope).haltsOnly
  · intro expression scope
    exact (evaluate_keeps calls expression scope).haltsOnly
  · intro template scope
    exact (Template.render_keeps calls template scope).haltsOnly
  · intro r d
    have bound := Binding.bind_keeps calls (fun _ _ => .noted nofun) r d
    exact bound.haltsOnly
  · intro scope c
    have asked := Condition.allows_keeps calls (fun _ _ => .noted nofun) scope c
    exact asked.haltsOnly
  · intro scope c
    have asked := Condition.repeats_keeps calls (fun _ _ => .noted nofun) scope c
    exact asked.haltsOnly
  · intro j scope
    exact (Command.run_confined j scope).haltsOnly

end Execution

end DirectiveRunner
