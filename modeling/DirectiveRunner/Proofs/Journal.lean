import DirectiveRunner.Run.Action
import Mathlib.Order.Defs.Unbundled
/-!
# What happens between two worlds

Statements about runs are statements about the events between the world a run starts in and the world
it ends in. `w.Leads events w'` says that `w'` comes of `w` by `events`, the first one first: they are
what the journal has grown by, and they account for every change of a halt code. Halts are thus
recorded twice, in the session and in the journal, and the two never disagree.

* `World.Leads.trans` — events add up along a run.
* `Action.Keeps` — an action relates the world before to the world after. For a preorder on worlds this
  is closed under everything actions are built with (`Keeps.bind` and the lemmas around it), so it is
  checked by going through the steps of an action once.
* `World.Does` — the preorder that says which kinds of events were done in between.
-/

namespace DirectiveRunner

/-! ## Halts in the journal -/

/-- The halt code of a file after an event, if it was `code` before. -/
def Event.haltCode? (file : Path) (code : Option Int64) : Event → Option Int64
  | .halted other c => if other.components = file.components then some c else code
  | _ => code

/-- The halt code of a file after some events, if it was `code` before. -/
def haltCodeAfter (file : Path) (code : Option Int64) (events : List Event) : Option Int64 :=
  events.foldl (Event.haltCode? file) code

@[simp] theorem haltCodeAfter_nil (file : Path) (code : Option Int64) :
    haltCodeAfter file code [] = code := rfl

@[simp] theorem haltCodeAfter_cons (file : Path) (code : Option Int64) (e : Event)
    (es : List Event) :
    haltCodeAfter file code (e :: es) = haltCodeAfter file (e.haltCode? file code) es := rfl

theorem haltCodeAfter_append (file : Path) (code : Option Int64) (es es' : List Event) :
    haltCodeAfter file code (es ++ es') = haltCodeAfter file (haltCodeAfter file code es) es' :=
  List.foldl_append

/-- Events that are no halts of a file leave its halt code as it is. -/
theorem haltCodeAfter_eq_self {file : Path} {events : List Event}
    (h : ∀ other c, .halted other c ∈ events → other.components ≠ file.components)
    (code : Option Int64) : haltCodeAfter file code events = code := by
  induction events with
  | nil => rfl
  | cons e es ih =>
    have kept : e.haltCode? file code = code := by
      cases e with
      | halted other c => simp [Event.haltCode?, h other c]
      | _ => rfl
    rw [haltCodeAfter_cons, kept]
    exact ih fun other c hm => h other c (List.mem_cons_of_mem e hm)

/-- A file that has a halt code keeps having one. -/
theorem haltCodeAfter_ne_none {file : Path} {code : Option Int64} (h : code ≠ none)
    (events : List Event) : haltCodeAfter file code events ≠ none := by
  induction events generalizing code with
  | nil => exact h
  | cons e es ih =>
    apply ih
    cases e with
    | halted other c => simp only [Event.haltCode?]; split <;> simp [h]
    | _ => exact h

/-- No event is of a kind if all of them are of a kind that excludes it. -/
theorem any_eq_false_of {P : Event → Prop} {q : Event → Bool} {events : List Event}
    (h : ∀ e ∈ events, P e) (excludes : ∀ e, P e → q e = false) : events.any q = false :=
  List.any_eq_false.mpr fun e he => by simp [excludes e (h e he)]

/-- One of the events of two parts of a run is one of the first part or one of the second. -/
theorem append_split {es es' before after : List Event} {e : Event}
    (h : es ++ es' = before ++ e :: after) :
    (∃ rest, es = before ++ e :: rest ∧ after = rest ++ es') ∨
      ∃ rest, before = es ++ rest ∧ es' = rest ++ e :: after := by
  rcases List.append_eq_append_iff.mp h with ⟨rest, rfl, tail⟩ | ⟨rest, rfl, tail⟩
  · exact .inr ⟨rest, rfl, tail⟩
  · rcases List.cons_eq_append_iff.mp tail with ⟨rfl, rfl⟩ | ⟨rest', rfl, rfl⟩
    · exact .inr ⟨[], by simp, rfl⟩
    · exact .inl ⟨rest', rfl, rfl⟩

theorem singleton_split {before after : List Event} {e e' : Event}
    (h : [e'] = before ++ e :: after) : before = [] ∧ e = e' ∧ after = [] := by
  cases before with
  | nil => cases h; exact ⟨rfl, rfl, rfl⟩
  | cons _ _ => simp at h

/-! ## Worlds in succession -/

/-- `w'` comes of `w` by some events, the first one first. -/
structure World.Leads (w : World) (events : List Event) (w' : World) : Prop where
  /-- The journal has grown by the events. -/
  journal : w'.journal = events.reverse ++ w.journal
  /-- The halt codes have changed as the events say. -/
  haltCode? (file : Path) :
    w'.session.haltCode? file = haltCodeAfter file (w.session.haltCode? file) events

namespace World.Leads

variable {w w₁ w₂ : World} {es es' : List Event}

theorem refl (w : World) : w.Leads [] w := ⟨rfl, fun _ => rfl⟩

theorem trans (h : w.Leads es w₁) (h' : w₁.Leads es' w₂) : w.Leads (es ++ es') w₂ where
  journal := by rw [h'.journal, h.journal, List.reverse_append, List.append_assoc]
  haltCode? file := by rw [h'.haltCode?, h.haltCode?, haltCodeAfter_append]

/-- The events between two worlds are determined by their journals. -/
theorem unique (h : w.Leads es w₁) (h' : w.Leads es' w₁) : es = es' := by
  have same := h.journal.symm.trans h'.journal
  exact List.reverse_inj.mp (List.append_cancel_right same)

/-- A world that differs neither in its journal nor in its halts comes of no events. -/
theorem of_eq (hj : w₁.journal = w.journal) (hh : w₁.session.halts = w.session.halts) :
    w.Leads [] w₁ where
  journal := hj
  haltCode? file := by simp [Session.haltCode?, hh]

/-- A file that is halted stays halted. -/
theorem haltCode?_ne_none {file : Path} (h : w.Leads es w₁)
    (halted : w.session.haltCode? file ≠ none) : w₁.session.haltCode? file ≠ none := by
  rw [h.haltCode?]
  exact haltCodeAfter_ne_none halted es

end World.Leads

/-- The world after an event was written into its journal. -/
def World.noted (w : World) (e : Event) : World := { w with journal := e :: w.journal }

@[simp] theorem World.session_noted (w : World) (e : Event) : (w.noted e).session = w.session := rfl

@[simp] theorem World.files_noted (w : World) (e : Event) : (w.noted e).files = w.files := rfl

/-- Writing an event down leads on by it, unless it claims a halt. -/
theorem World.leads_noted (w : World) (e : Event) (h : ∀ file c, e ≠ .halted file c) :
    w.Leads [e] (w.noted e) where
  journal := rfl
  haltCode? file := by
    refine (haltCodeAfter_eq_self (fun other c hm => ?_) _).symm
    exact absurd (List.mem_singleton.mp hm).symm (h other c)

/-- Halting a file and writing that down leads on by the halt. -/
theorem World.leads_halt (w : World) (file : Path) (code : Int64) :
    w.Leads [.halted file code]
      { w with session := w.session.halt file code, journal := .halted file code :: w.journal } where
  journal := rfl
  haltCode? other := by
    simp only [haltCodeAfter_cons, haltCodeAfter_nil, Event.haltCode?]
    split
    · next same => simp [Session.halt, Session.haltCode?, same]
    · next differs =>
      exact Session.haltCode?_halt_of_ne (fun same => differs same.symm) w.session code

/-- `w'` comes of `w` by events of which `P` holds. -/
def World.Does (P : Event → Prop) (w w' : World) : Prop :=
  ∃ events, w.Leads events w' ∧ ∀ e ∈ events, P e

instance (P : Event → Prop) : IsPreorder World (World.Does P) where
  refl w := ⟨[], .refl w, by simp⟩
  trans _ _ _ := by
    rintro ⟨es, lead, hes⟩ ⟨es', lead', hes'⟩
    refine ⟨es ++ es', lead.trans lead', fun e he => ?_⟩
    rcases List.mem_append.mp he with he | he
    · exact hes e he
    · exact hes' e he

/-- Writing down an event of which `P` holds, unless it claims a halt. -/
theorem World.Does.noted {P : Event → Prop} {w : World} {e : Event} (h : P e)
    (hn : ∀ file c, e ≠ .halted file c) : w.Does P (w.noted e) :=
  ⟨[e], w.leads_noted e hn, by simpa using h⟩

theorem World.Does.mono {P Q : Event → Prop} {w w' : World} (h : w.Does P w')
    (sub : ∀ e, P e → Q e) : w.Does Q w' := by
  obtain ⟨es, lead, hes⟩ := h
  exact ⟨es, lead, fun e he => sub e (hes e he)⟩

/-- `w'` comes of `w` by events of which the marked ones are these. -/
def World.Marks (marked : Event → Bool) (marks : List Event) (w w' : World) : Prop :=
  ∃ events, w.Leads events w' ∧ events.filter marked = marks

namespace World.Marks

variable {marked : Event → Bool} {w w₁ w₂ : World} {es es' : List Event}

theorem trans (h : w.Marks marked es w₁) (h' : w₁.Marks marked es' w₂) :
    w.Marks marked (es ++ es') w₂ := by
  obtain ⟨events, lead, rfl⟩ := h
  obtain ⟨events', lead', rfl⟩ := h'
  exact ⟨events ++ events', lead.trans lead', List.filter_append ..⟩

theorem of_does (h : w.Does (marked · = false) w₁) : w.Marks marked [] w₁ := by
  obtain ⟨events, lead, quiet⟩ := h
  exact ⟨events, lead, List.filter_eq_nil_iff.mpr fun e he => by simp [quiet e he]⟩

theorem quiet (h : w.Marks marked es w₁) (h' : w₁.Does (marked · = false) w₂) :
    w.Marks marked es w₂ := by
  simpa using h.trans (of_does h')

theorem noted {e : Event} (h : marked e = true) (hn : ∀ file c, e ≠ .halted file c) :
    w.Marks marked [e] (w.noted e) :=
  ⟨[e], w.leads_noted e hn, by simp [h]⟩

end World.Marks

/-- Starting in the world `w`, some things are done one after the other with some results, each in the
world that the one before has left, and the world `w'` is left. What it takes to do one of them is said
by `Does`. -/
inductive World.InTurn {α β : Type} (Does : World → α → β → World → Prop) :
    World → List α → List β → World → Prop
  | nil {w : World} : InTurn Does w [] [] w
  | cons {w w₁ w' : World} {a : α} {as : List α} {b : β} {bs : List β} :
    Does w a b w₁ → InTurn Does w₁ as bs w' → InTurn Does w (a :: as) (b :: bs) w'

/-! ## Relations that actions keep -/

namespace Action

variable {ε ε' α β : Type} {R : World → World → Prop} {s : Setting}

/-- Whatever the world, the action leads to a world that `R` relates to it. -/
def Keeps (R : World → World → Prop) (s : Setting) (a : Action ε α) : Prop :=
  ∀ w, R w (a.run s w).2

@[simp] theorem run_record_bind (e : Event) (f : Unit → Action ε α) (s : Setting) (w : World) :
    (record e >>= f).run s w = (f ()).run s (w.noted e) := rfl

@[simp] theorem run_setting_bind (f : Setting → Action ε α) (s : Setting) (w : World) :
    (setting >>= f).run s w = (f s).run s w := rfl

@[simp] theorem run_world_bind (f : World → Action ε α) (s : Setting) (w : World) :
    (world >>= f).run s w = (f w).run s w := rfl

@[simp] theorem run_haltCode?_bind (f : Option Int64 → Action ε α) (s : Setting) (w : World) :
    (haltCode? >>= f).run s w = (f (w.session.haltCode? s.file.path)).run s w := rfl

@[simp] theorem run_report_bind (n : Notice) (f : Unit → Action ε α) (s : Setting) (w : World) :
    (report n >>= f).run s w = (f ()).run s (w.noted (.shown n)) := rfl

/-- The result of two actions in a row: the first one fails, or the second one goes on from the world
that the first one leaves. -/
theorem run_bind_cases {a : Action ε α} {f : α → Action ε β} {w w' : World} {r : Except ε β}
    (h : (a >>= f).run s w = (r, w')) :
    (∃ e, a.run s w = (.error e, w') ∧ r = .error e) ∨
      ∃ x w₁, a.run s w = (.ok x, w₁) ∧ (f x).run s w₁ = (r, w') := by
  rw [run_bind] at h
  rcases hr : a.run s w with ⟨_ | x, w₁⟩
  · rw [hr] at h
    cases h
    exact .inl ⟨_, rfl, rfl⟩
  · rw [hr] at h
    exact .inr ⟨x, w₁, rfl, h⟩

/-- If two actions in a row yield, both do. -/
theorem run_bind_ok {a : Action ε α} {f : α → Action ε β} {w w' : World} {y : β}
    (h : (a >>= f).run s w = (.ok y, w')) :
    ∃ x w₁, a.run s w = (.ok x, w₁) ∧ (f x).run s w₁ = (.ok y, w') := by
  rcases run_bind_cases h with ⟨_, _, impossible⟩ | yields
  · cases impossible
  · exact yields

theorem run_bind_eq_ok_iff {a : Action ε α} {f : α → Action ε β} {w w' : World} {y : β} :
    (a >>= f).run s w = (.ok y, w') ↔
      ∃ x w₁, a.run s w = (.ok x, w₁) ∧ (f x).run s w₁ = (.ok y, w') := by
  constructor
  · exact run_bind_ok
  · rintro ⟨x, w₁, first, second⟩
    rw [run_bind, first]
    exact second

theorem run_bind_eq_error_iff {a : Action ε α} {f : α → Action ε β} {w w' : World} {e : ε} :
    (a >>= f).run s w = (.error e, w') ↔ a.run s w = (.error e, w') ∨
      ∃ x w₁, a.run s w = (.ok x, w₁) ∧ (f x).run s w₁ = (.error e, w') := by
  constructor
  · intro failed
    rcases run_bind_cases failed with ⟨_, first, same⟩ | second
    · cases same
      exact .inl first
    · exact .inr second
  · rintro (first | ⟨x, w₁, first, second⟩)
    · rw [run_bind, first]
    · rw [run_bind, first]
      exact second

/-- What follows an action only sees its result and the world it leaves. -/
theorem run_bind_congr {a b : Action ε α} {w w' : World} (h : a.run s w = b.run s w')
    (f : α → Action ε β) : (a >>= f).run s w = (b >>= f).run s w' := by
  rw [run_bind, run_bind, h]

theorem run_onFailure_congr {a b : Action ε α} {w w' : World} (h : a.run s w = b.run s w')
    (closing : Action ε Unit) :
    (a.onFailure closing).run s w = (b.onFailure closing).run s w' := by
  simp only [run, onFailure] at h ⊢
  rw [h]

/-- An action that fails is followed by the other one, and its own error stays the result. -/
theorem run_onFailure_cases {a : Action ε α} {closing : Action ε Unit} {w w' : World}
    {r : Except ε α} (h : (a.onFailure closing).run s w = (r, w')) :
    (∃ e w₁, a.run s w = (.error e, w₁) ∧ r = .error e ∧ w' = (closing.run s w₁).2) ∨
      ∃ x, a.run s w = (.ok x, w') ∧ r = .ok x := by
  simp only [run, onFailure] at h ⊢
  rcases hr : a s w with ⟨e | x, w₁⟩
  · rw [hr] at h
    cases h
    exact .inl ⟨e, w₁, rfl, rfl, rfl⟩
  · rw [hr] at h
    cases h
    exact .inr ⟨x, rfl, rfl⟩

/-- A run that yields is known by its result and the world it leads to. -/
theorem run_eq_ok {a : Action ε α} {w : World} {x : α} (h : (a.run s w).1.toOption = some x) :
    a.run s w = (.ok x, (a.run s w).2) := by
  rcases hr : a.run s w with ⟨_ | y, w'⟩
  · rw [hr] at h
    cases h
  · rw [hr] at h
    cases h
    rfl

theorem ofExcept_ok_bind (x : α) (f : α → Action ε β) : ofExcept (.ok x) >>= f = f x := rfl

theorem ofExcept_error_bind (e : ε) (f : α → Action ε β) :
    ofExcept (.error e) >>= f = .fail e := rfl

theorem run_ofExcept_bind_ok {x : Except ε α} {f : α → Action ε β} {w w' : World} {y : β}
    (h : (ofExcept x >>= f).run s w = (.ok y, w')) :
    ∃ a, x = .ok a ∧ (f a).run s w = (.ok y, w') := by
  obtain ⟨a, w₁, computed, h⟩ := run_bind_ok h
  rw [run_ofExcept, Prod.mk.injEq] at computed
  obtain ⟨rfl, rfl⟩ := computed
  exact ⟨a, rfl, h⟩

theorem run_mapError (f : ε → ε') (a : Action ε α) (s : Setting) (w : World) :
    (a.mapError f).run s w = ((a.run s w).1.mapError f, (a.run s w).2) := by
  rcases hr : a.run s w with ⟨_ | x, w₁⟩ <;>
    simp only [run, mapError] at hr ⊢ <;> rw [hr] <;> rfl

theorem run_mapError_cases {f : ε → ε'} {a : Action ε α} {w w' : World} {r : Except ε' α}
    (h : (a.mapError f).run s w = (r, w')) :
    (∃ e, a.run s w = (.error e, w') ∧ r = .error (f e)) ∨
      ∃ x, a.run s w = (.ok x, w') ∧ r = .ok x := by
  simp only [run, mapError] at h
  rcases hr : a s w with ⟨e | x, w₁⟩
  · rw [hr] at h
    cases h
    exact .inl ⟨e, hr, rfl⟩
  · rw [hr] at h
    cases h
    exact .inr ⟨x, hr, rfl⟩

namespace Keeps

theorem of_run {a : Action ε α} (h : Keeps R s a) {w w' : World} {r : Except ε α}
    (run : a.run s w = (r, w')) : R w w' := by
  have := h w
  rwa [run] at this

theorem mono {R' : World → World → Prop} {a : Action ε α} (h : Keeps R s a)
    (sub : ∀ w w', R w w' → R' w w') : Keeps R' s a :=
  fun w => sub w _ (h w)

section Preorder

variable [IsPreorder World R]

theorem pure (x : α) : Keeps R s (Pure.pure x : Action ε α) := fun w => refl_of R w

theorem fail (e : ε) : Keeps R s (Action.fail e : Action ε α) := fun w => refl_of R w

theorem ofExcept (x : Except ε α) : Keeps R s (Action.ofExcept x) := fun w => refl_of R w

theorem world : Keeps R s (Action.world : Action ε World) := fun w => refl_of R w

theorem haltCode? : Keeps R s (Action.haltCode? : Action ε (Option Int64)) := fun w => refl_of R w

/-- From a given world, it is enough that what follows keeps on from the world that is reached. -/
theorem bind_from {a : Action ε α} {f : α → Action ε β} {w : World} (ha : R w (a.run s w).2)
    (hf : ∀ x w₁, a.run s w = (.ok x, w₁) → R w₁ ((f x).run s w₁).2) :
    R w ((a >>= f).run s w).2 := by
  rcases hr : (a >>= f).run s w with ⟨r, w'⟩
  rcases run_bind_cases hr with ⟨_, first, _⟩ | ⟨x, w₁, first, second⟩
  · rwa [first] at ha
  · have next := hf x w₁ first
    rw [first] at ha
    rw [second] at next
    exact trans_of R ha next

theorem bind {a : Action ε α} {f : α → Action ε β} (ha : Keeps R s a)
    (hf : ∀ x, Keeps R s (f x)) : Keeps R s (a >>= f) :=
  fun w => bind_from (ha w) fun x w₁ _ => hf x w₁

/-- What follows a computation is only run with its result. -/
theorem bind_ofExcept {x : Except ε α} {f : α → Action ε β}
    (h : ∀ a, x = .ok a → Keeps R s (f a)) : Keeps R s (Action.ofExcept x >>= f) := by
  cases x with
  | error e => exact fun w => refl_of R w
  | ok a => exact h a rfl

theorem onFailure {a : Action ε α} {closing : Action ε Unit} (ha : Keeps R s a)
    (hc : Keeps R s closing) : Keeps R s (a.onFailure closing) := by
  intro w
  rcases hr : (a.onFailure closing).run s w with ⟨r, w'⟩
  rcases run_onFailure_cases hr with ⟨_, w₁, failed, _, rfl⟩ | ⟨_, yields, _⟩
  · exact trans_of R (ha.of_run failed) (hc w₁)
  · exact ha.of_run yields

end Preorder

/-- What follows an action may do what is not marked. -/
theorem bind_quiet {marked : Event → Bool} {marks : List Event} {a : Action ε α} {f : α → Action ε β}
    (ha : Keeps (World.Marks marked marks) s a)
    (hf : ∀ x, Keeps (World.Does (marked · = false)) s (f x)) :
    Keeps (World.Marks marked marks) s (a >>= f) := by
  intro w
  rcases hr : (a >>= f).run s w with ⟨r, w'⟩
  rcases run_bind_cases hr with ⟨_, first, _⟩ | ⟨x, w₁, first, second⟩
  · exact ha.of_run first
  · exact (ha.of_run first).quiet ((hf x).of_run second)

/-- What follows a look at the setting is only run in that setting. -/
theorem bind_setting {f : Setting → Action ε β} (h : Keeps R s (f s)) :
    Keeps R s (Action.setting >>= f) := h

theorem modify {f : World → World} (h : ∀ w, R w (f w)) :
    Keeps R s (Action.modify f : Action ε Unit) := h

theorem record {e : Event} (h : ∀ w : World, R w (w.noted e)) :
    Keeps R s (Action.record e : Action ε Unit) := h

theorem mapError {f : ε → ε'} {a : Action ε α} (ha : Keeps R s a) :
    Keeps R s (a.mapError f) := by
  intro w
  simp only [Action.run, Action.mapError]
  rcases hr : a s w with ⟨_ | x, w₁⟩ <;> exact ha.of_run hr

theorem withSetting {f : Setting → Setting} {a : Action ε α} (ha : Keeps R (f s) a) :
    Keeps R s (a.withSetting f) := fun w => ha w

theorem ite {c : Prop} [Decidable c] {a b : Action ε α} (ha : Keeps R s a) (hb : Keeps R s b) :
    Keeps R s (if c then a else b) := by
  split <;> assumption

end Keeps

end Action

end DirectiveRunner
