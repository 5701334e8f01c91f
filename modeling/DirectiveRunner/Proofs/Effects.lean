import DirectiveRunner.Proofs.Execution
/-!
# Expressions without effects

Flags, defaults, conditions and commands are expressions, and most helpers only look at the world. So
an expression that calls none of the few helpers that act, or that ask the user, leaves the world as it
is, whatever it yields and wherever it fails: the session with its halts and its change cache, the
files, and the journal with the output and the processes (`evaluation_leaves_world`).

What counts is which names are written in the expression, at any depth (`Expr.calls`), and not which of
them are reached.
-/

namespace DirectiveRunner

namespace Helper

/-- The helpers that act, and those that ask the user. -/
def effects : List String :=
  ["changed", "unchanged", "halt", "putSession", "writeToFile", starter, "showMessage",
    "showInput", "showOptions"]

theorem mem_effects_of_mayAct {h : Helper} (registered : h ∈ all) (acts : h.mayAct = true) :
    h.name ∈ effects := by
  have listed : h.name ∈ (all.filter mayAct).map (·.name) :=
    List.mem_map_of_mem (List.mem_filter.mpr ⟨registered, acts⟩)
  rw [acting_names] at listed
  -- all that act are among the effects, which are two names more
  revert listed
  generalize h.name = name
  simp only [effects, starter, List.mem_cons, List.not_mem_nil, or_false]
  grind

theorem call_leaves_world {name : String} (h : name ∉ effects) (s : Setting) (args : List Value) :
    Action.Keeps Eq s (call name args) := by
  intro w
  unfold call
  split
  · next helper found =>
    have registered : helper ∈ all := List.mem_of_find?_eq_some found
    have named : helper.name = name := by simpa using List.find?_some found
    cases acts : helper.mayAct with
    | false => exact (run_of_not_acts acts args s w).symm
    | true =>
      refine absurd ?_ h
      rw [← named]
      exact mem_effects_of_mayAct registered acts
  · rfl

end Helper

/-- A template that calls no helper that acts or asks the user leaves the world as it was. -/
theorem Template.render_leaves_world {template : String}
    (quiet : ∀ name ∈ calls template, name ∉ Helper.effects) (scope : Bindings) (s : Setting)
    (w : World) : ((render template scope).run s w).2 = w := by
  have kept : Helper.Keep Eq s (calls template) :=
    fun name mem => Helper.call_leaves_world (quiet name mem) s
  exact (render_keeps_of template scope kept w).symm

/-- **Expressions without effects.** If none of the names that an expression calls, at any depth, is
that of a helper that acts or asks the user, then evaluating it leaves the world as it was, whether it
yields a value or fails. The same holds for an expression given as text and for a template. -/
theorem evaluation_leaves_world (scope : Bindings) (s : Setting) (w : World) :
    (∀ e : Expr, (∀ name ∈ e.calls, name ∉ Helper.effects) → ((e.eval scope).run s w).2 = w) ∧
    (∀ expression : String, (∀ name ∈ callsOf expression, name ∉ Helper.effects) →
      ((evaluate expression scope).run s w).2 = w) ∧
    ∀ template : String, (∀ name ∈ Template.calls template, name ∉ Helper.effects) →
      ((Template.render template scope).run s w).2 = w := by
  -- having no effect is keeping the world equal, which is a preorder like any other
  have kept {names : List String} (h : ∀ name ∈ names, name ∉ Helper.effects) :
      Helper.Keep Eq s names := fun name mem => Helper.call_leaves_world (h name mem) s
  refine ⟨?_, ?_, ?_⟩
  · intro e quiet
    exact (e.eval_keeps_of scope (kept quiet) w).symm
  · intro expression quiet
    exact (evaluate_keeps_of expression scope (kept quiet) w).symm
  · intro template quiet
    exact Template.render_leaves_world quiet scope s w

/-- Looking at files and at what is stored leaves no trace, and neither does failing on the way. -/
theorem evaluation_leaves_world_looking :
    let e : Expr := .choice (.call "exists" [.literal (.str "a")]) (.call "getSession" []) (.ident "b")
    let guard := "missing('bib') || readFromFile('a').size() > 1 / 0"
    let flag := "-I @\x7b toFile('lib') \x7d @\x7b isTrue(parameters.shell, getSession()['k']) \x7d"
    let s := Setting.ofDocument "doc.tex" true
    let w := Execution.failingCheck
    (∀ name ∈ e.calls, name ∉ Helper.effects) ∧ (∀ name ∈ callsOf guard, name ∉ Helper.effects) ∧
      (∀ name ∈ Template.calls flag, name ∉ Helper.effects) ∧
      Template.calls flag = ["toFile", "isTrue", "getSession"] ∧
      ((e.eval []).run s w).2 = w ∧ ((evaluate guard []).run s w).2 = w ∧
      ((Template.render flag []).run s w).2 = w := by
  intro e guard flag s w
  have inTree : ∀ name ∈ e.calls, name ∉ Helper.effects := by decide +kernel
  have inGuard : ∀ name ∈ callsOf guard, name ∉ Helper.effects := by decide +kernel
  have inFlag : ∀ name ∈ Template.calls flag, name ∉ Helper.effects := by decide +kernel
  obtain ⟨tree, expression, template⟩ := evaluation_leaves_world [] s w
  exact ⟨inTree, inGuard, inFlag, by decide +kernel, tree e inTree, expression guard inGuard,
    template flag inFlag⟩

end DirectiveRunner
