import DirectiveRunner.Proofs.Journal
/-!
# What actions ensure

`Action.Ensures P E s a Q` is a triple: if `P` holds of the world that the action `a` starts from, then
`P` holds of the world it leaves, `Q` of the result that it yields, and `E` of the error that it fails
with. It goes through the steps of an action like `Action.Keeps` does, but what follows a step may count
on the result of the step, and on `P`. So it is for the properties of a world that hold only because
something holds of the values that are written into it.
-/

namespace DirectiveRunner

variable {ε ε' α β : Type} {Q : α → Prop} {Q' : β → Prop} {E : ε → Prop} {E' : ε' → Prop}

/-- `Q` holds of what a computation yields, or `E` of the error that it fails with. -/
def Meets (Q : α → Prop) (E : ε → Prop) : Except ε α → Prop
  | .ok x => Q x
  | .error e => E e

namespace Meets

theorem bind {x : Except ε α} {f : α → Except ε β} (h : Meets Q E x)
    (hf : ∀ a, Q a → Meets Q' E (f a)) : Meets Q' E (x >>= f) := by
  cases x with
  | error e => exact h
  | ok a => exact hf a h

/-- If nothing is asked of errors, then a step need not be looked at. -/
theorem after {x : Except ε α} {f : α → Except ε β} (hf : ∀ a, Meets Q' (fun _ => True) (f a)) :
    Meets Q' (fun _ => True) (x >>= f) := by
  cases x with
  | error e => trivial
  | ok a => exact hf a

theorem of {x : Except ε α} (h : ∀ a, x = .ok a → Q a) (he : ∀ e, x = .error e → E e) :
    Meets Q E x := by
  cases x with
  | error e => exact he e rfl
  | ok a => exact h a rfl

theorem of_ok {x : Except ε α} (h : ∀ a, x = .ok a → Q a) : Meets Q (fun _ => True) x :=
  .of h fun _ _ => trivial

theorem yields {x : Except ε α} (h : Meets Q E x) {a : α} (same : x = .ok a) : Q a := by
  rwa [same] at h

end Meets

namespace Action

variable {P : World → Prop} {s : Setting}

/-- From any world of which `P` holds, the action leads to one of which `P` holds; `Q` holds of what it
yields, and `E` of the error that it fails with. -/
def Ensures (P : World → Prop) (E : ε → Prop) (s : Setting) (a : Action ε α) (Q : α → Prop) : Prop :=
  ∀ w, P w → P (a.run s w).2 ∧ Meets Q E (a.run s w).1

namespace Ensures

theorem of_run {a : Action ε α} (h : Ensures P E s a Q) {w w' : World} {x : α}
    (run : a.run s w = (.ok x, w')) (holds : P w) : P w' ∧ Q x := by
  have := h w holds
  rwa [run] at this

theorem of_failure {a : Action ε α} (h : Ensures P E s a Q) {w : World} {e : ε}
    (failed : (a.run s w).1 = .error e) (holds : P w) : E e := by
  have := (h w holds).2
  rwa [failed] at this

theorem pure {x : α} (h : Q x) : Ensures P E s (Pure.pure x : Action ε α) Q :=
  fun _ holds => ⟨holds, h⟩

theorem fail {e : ε} (h : E e) : Ensures P E s (Action.fail e : Action ε α) Q :=
  fun _ holds => ⟨holds, h⟩

theorem ofExcept {x : Except ε α} (h : Meets Q E x) : Ensures P E s (Action.ofExcept x) Q :=
  fun _ holds => ⟨holds, h⟩

theorem world : Ensures P E s Action.world P := fun _ holds => ⟨holds, holds⟩

theorem haltCode? : Ensures P E s (Action.haltCode? : Action ε (Option Int64)) fun _ => True :=
  fun _ holds => ⟨holds, trivial⟩

theorem modify {f : World → World} (h : ∀ w, P w → P (f w)) :
    Ensures P E s (Action.modify f : Action ε Unit) fun _ => True :=
  fun w holds => ⟨h w holds, trivial⟩

theorem record {e : Event} (h : ∀ w, P w → P (w.noted e)) :
    Ensures P E s (Action.record e : Action ε Unit) fun _ => True := modify h

theorem bind {a : Action ε α} {f : α → Action ε β} (ha : Ensures P E s a Q)
    (hf : ∀ x, Q x → Ensures P E s (f x) Q') : Ensures P E s (a >>= f) Q' := by
  intro w holds
  have first := ha w holds
  rw [run_bind]
  rcases hr : a.run s w with ⟨e | x, w₁⟩
  · rw [hr] at first
    exact first
  · rw [hr] at first
    exact hf x first.2 w₁ first.1

/-- What follows a look at the setting is only run in that setting. -/
theorem bind_setting {f : Setting → Action ε β} (h : Ensures P E s (f s) Q') :
    Ensures P E s (Action.setting >>= f) Q' := h

/-- If nothing is asked of errors, then a computation need not be looked at. -/
theorem after {x : Except ε α} {f : α → Action ε β}
    (hf : ∀ a, Ensures P (fun _ => True) s (f a) Q') :
    Ensures P (fun _ => True) s (Action.ofExcept x >>= f) Q' :=
  .bind (.ofExcept (.of_ok fun _ _ => trivial)) fun a _ => hf a

theorem mapError {f : ε → ε'} {a : Action ε α} (ha : Ensures P E s a Q) (h : ∀ e, E e → E' (f e)) :
    Ensures P E' s (a.mapError f) Q := by
  intro w holds
  have first := ha w holds
  rw [run_mapError]
  rcases hr : a.run s w with ⟨e | x, w₁⟩
  · rw [hr] at first
    exact ⟨first.1, h e first.2⟩
  · rw [hr] at first
    exact first

theorem onFailure {a : Action ε α} {closing : Action ε Unit} (ha : Ensures P E s a Q)
    (hc : ∀ w, P w → P (closing.run s w).2) : Ensures P E s (a.onFailure closing) Q := by
  intro w holds
  have first := ha w holds
  rcases hr : (a.onFailure closing).run s w with ⟨r, w'⟩
  rcases run_onFailure_cases hr with ⟨e, w₁, failed, rfl, rfl⟩ | ⟨x, yields, rfl⟩
  · rw [failed] at first
    exact ⟨hc w₁ first.1, first.2⟩
  · rw [yields] at first
    exact first

theorem withSetting {f : Setting → Setting} {a : Action ε α} (ha : Ensures P E (f s) a Q) :
    Ensures P E s (a.withSetting f) Q := fun w holds => ha w holds

theorem ite {c : Prop} [Decidable c] {a b : Action ε α} (ha : c → Ensures P E s a Q)
    (hb : ¬c → Ensures P E s b Q) : Ensures P E s (if c then a else b) Q := by
  split
  · next h => exact ha h
  · next h => exact hb h

end Ensures

end Action

end DirectiveRunner
