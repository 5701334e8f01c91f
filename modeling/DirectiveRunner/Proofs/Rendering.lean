import DirectiveRunner.Proofs.Execution
import DirectiveRunner.Proofs.Template
/-!
# Rendering templates

A template is rendered in one of two ways. If it is a single block among blanks, it has the value of
that block, whatever kind of value that is (`Sole`). Otherwise its blocks are evaluated from left to
right, each in the world that the one before has left, and the template has the text in which the
values stand in the places of the blocks (`filled`). The first block that fails ends the rendering.
`render_outcome` puts this together.
-/

namespace DirectiveRunner.Template

variable {scope : Bindings} {s : Setting} {w w' : World} {segments : List Segment}

/-- The code of a segment, if it is a block. -/
def Segment.code? : Segment → Option (List Char)
  | .literal _ => none
  | .block code => some code

/-- The codes of the blocks among some segments, in order. -/
def blocks (segments : List Segment) : List (List Char) := segments.filterMap Segment.code?

@[simp] theorem blocks_nil : blocks [] = [] := rfl

@[simp] theorem blocks_literal (t : List Char) (segments : List Segment) :
    blocks (.literal t :: segments) = blocks segments := rfl

@[simp] theorem blocks_block (code : List Char) (segments : List Segment) :
    blocks (.block code :: segments) = code :: blocks segments := rfl

/-! ## The two ways of rendering -/

/-- There is just one block, and everything else is blank. -/
structure Sole (segments : List Segment) (code : List Char) : Prop where
  block : blocks segments = [code]
  blank : ∀ t, .literal t ∈ segments → ∀ c ∈ t, Text.isBlank c = true

theorem filterMap_eq_blocks (segments : List Segment) :
    (segments.filterMap fun
      | .block code => some code
      | .literal _ => none) = blocks segments := by
  refine congrArg (segments.filterMap ·) (funext fun segment => ?_)
  cases segment <;> rfl

theorem all_blank_iff (segments : List Segment) :
    (segments.all fun
      | .block _ => true
      | .literal t => Text.allBlank t) = true ↔
      ∀ t, .literal t ∈ segments → ∀ c ∈ t, Text.isBlank c = true := by
  rw [List.all_eq_true]
  constructor
  · intro all t mem
    exact List.all_eq_true.mp (all _ mem)
  · intro all segment mem
    cases segment with
    | block _ => rfl
    | literal t => exact List.all_eq_true.mpr (all t mem)

theorem soleBlock?_eq_some_iff {code : List Char} :
    soleBlock? segments = some code ↔ Sole segments code := by
  have codes := filterMap_eq_blocks segments
  have blank := all_blank_iff segments
  unfold soleBlock?
  dsimp only
  constructor
  · intro found
    split at found
    · next code' one blanks =>
      cases found
      exact ⟨codes.symm.trans one, blank.mp blanks⟩
    · cases found
  · rintro ⟨one, blanks⟩
    split
    · next code' one' _ =>
      have same : [code] = [code'] := one.symm.trans (codes.symm.trans one')
      rw [(List.cons.inj same).1]
    · next differs => exact (differs code (codes.trans one) (blank.mpr blanks)).elim

/-- The text of some segments with the texts of values in the places of the blocks. -/
def filled : List Segment → List Value → String
  | .literal t :: segments, vs => .ofList t ++ filled segments vs
  | .block _ :: segments, v :: vs => v.text ++ filled segments vs
  | .block _ :: _, [] | [], _ => ""

/-- In the world `w` a code is evaluated to a value, and the world `w'` is left. -/
def Evaluates (scope : Bindings) (s : Setting) (w : World) (code : List Char) (v : Value)
    (w' : World) : Prop :=
  (evaluate (.ofList code) scope).run s w = (.ok v, w')

/-- Starting in the world `w`, the first of some codes that fails does so with an error, after those
before it were evaluated one after the other, and the world `w'` is left. -/
def FirstFails (scope : Bindings) (s : Setting) (w : World) (codes : List (List Char)) (e : EvalError)
    (w' : World) : Prop :=
  ∃ before code after vs w₁, codes = before ++ code :: after ∧
    w.InTurn (Evaluates scope s) before vs w₁ ∧
    (evaluate (.ofList code) scope).run s w₁ = (.error e, w')

namespace FirstFails

variable {code : List Char} {codes : List (List Char)} {e : EvalError}

theorem nil : ¬FirstFails scope s w [] e w' := by
  rintro ⟨before, code, after, _, _, split, -⟩
  simp at split

/-- The first code fails, or it has a value and a later one fails. -/
theorem cons : FirstFails scope s w (code :: codes) e w' ↔
    (evaluate (.ofList code) scope).run s w = (.error e, w') ∨
      ∃ v w₁, Evaluates scope s w code v w₁ ∧ FirstFails scope s w₁ codes e w' := by
  constructor
  · rintro ⟨before, code', after, vs, w₁, split, inTurn, failed⟩
    cases inTurn with
    | nil =>
      cases split
      exact .inl failed
    | cons first later =>
      obtain ⟨rfl, rfl⟩ := List.cons.inj split
      exact .inr ⟨_, _, first, _, _, _, _, _, rfl, later, failed⟩
  · rintro (failed | ⟨v, w₁, first, before, code', after, vs, w₂, rfl, later, failed⟩)
    · exact ⟨[], code, codes, [], w, rfl, .nil, failed⟩
    · exact ⟨code :: before, code', after, v :: vs, w₂, rfl, .cons first later, failed⟩

end FirstFails

theorem renderSegments_eq_ok_iff {text : String} :
    (renderSegments scope segments).run s w = (.ok text, w') ↔
      ∃ vs, w.InTurn (Evaluates scope s) (blocks segments) vs w' ∧ text = filled segments vs := by
  induction segments generalizing w w' text with
  | nil =>
    rw [renderSegments, Action.run_pure]
    constructor
    · rintro ⟨⟩
      exact ⟨[], .nil, rfl⟩
    · rintro ⟨vs, inTurn, rfl⟩
      cases inTurn
      rfl
  | cons segment segments ih =>
    cases segment with
    | literal t =>
      rw [renderSegments, Action.run_bind_eq_ok_iff, blocks_literal]
      simp only [ih, Action.run_pure, Prod.mk.injEq, Except.ok.injEq]
      constructor
      · rintro ⟨later, w₁, ⟨vs, inTurn, rfl⟩, rfl, rfl⟩
        exact ⟨vs, inTurn, rfl⟩
      · rintro ⟨vs, inTurn, rfl⟩
        exact ⟨_, w', ⟨vs, inTurn, rfl⟩, rfl, rfl⟩
    | block code =>
      rw [renderSegments, Action.run_bind_eq_ok_iff, blocks_block]
      simp only [Action.run_bind_eq_ok_iff, ih, Action.run_pure, Prod.mk.injEq, Except.ok.injEq]
      constructor
      · rintro ⟨v, w₁, first, later, w₂, ⟨vs, inTurn, rfl⟩, rfl, rfl⟩
        exact ⟨v :: vs, .cons first inTurn, rfl⟩
      · rintro ⟨_, _ | ⟨first, inTurn⟩, rfl⟩
        exact ⟨_, _, first, _, w', ⟨_, inTurn, rfl⟩, rfl, rfl⟩

theorem renderSegments_eq_error_iff {e : EvalError} :
    (renderSegments scope segments).run s w = (.error e, w') ↔
      FirstFails scope s w (blocks segments) e w' := by
  induction segments generalizing w with
  | nil =>
    rw [renderSegments, Action.run_pure, blocks_nil]
    exact ⟨nofun, fun failed => absurd failed FirstFails.nil⟩
  | cons segment segments ih =>
    -- to put the texts together never fails
    cases segment with
    | literal t =>
      rw [renderSegments, Action.run_bind_eq_error_iff, blocks_literal, ih]
      simp
    | block code =>
      rw [renderSegments, Action.run_bind_eq_error_iff, blocks_block, FirstFails.cons]
      simp only [Action.run_bind_eq_error_iff, ih]
      simp [Evaluates]

/-! ## The outcome -/

section

variable {template : String} (cut : split template = .ok segments)

include cut

theorem render_of_sole {code : List Char} (sole : Sole segments code) :
    render template scope = evaluate (.ofList code) scope := by
  rw [render, cut, Action.ofExcept_ok_bind, soleBlock?_eq_some_iff.mpr sole]

theorem render_of_mixed (mixed : ¬∃ code, Sole segments code) :
    render template scope = renderSegments scope segments >>= fun text => pure (.str text) := by
  have none : soleBlock? segments = none :=
    Option.eq_none_iff_forall_ne_some.mpr fun code sole =>
      mixed ⟨code, soleBlock?_eq_some_iff.mp sole⟩
  rw [render, cut, Action.ofExcept_ok_bind, none]

theorem render_eq_ok_iff (mixed : ¬∃ code, Sole segments code) {v : Value} :
    (render template scope).run s w = (.ok v, w') ↔
      ∃ vs, w.InTurn (Evaluates scope s) (blocks segments) vs w' ∧ v = .str (filled segments vs) := by
  rw [render_of_mixed cut mixed, Action.run_bind_eq_ok_iff]
  simp only [renderSegments_eq_ok_iff, Action.run_pure, Prod.mk.injEq, Except.ok.injEq]
  constructor
  · rintro ⟨text, w₁, ⟨vs, inTurn, rfl⟩, rfl, rfl⟩
    exact ⟨vs, inTurn, rfl⟩
  · rintro ⟨vs, inTurn, rfl⟩
    exact ⟨_, w', ⟨vs, inTurn, rfl⟩, rfl, rfl⟩

theorem render_eq_error_iff (mixed : ¬∃ code, Sole segments code) {e : EvalError} :
    (render template scope).run s w = (.error e, w') ↔
      FirstFails scope s w (blocks segments) e w' := by
  rw [render_of_mixed cut mixed, Action.run_bind_eq_error_iff, renderSegments_eq_error_iff]
  simp

end

/-- **What a template renders to.** A template that cannot be cut fails with that error, and nothing is
evaluated. A template that is cut is made up of its segments. If they are a single block among blanks,
then to render the template is to evaluate the code of that block. Otherwise the blocks are evaluated
from left to right: if all of them have values, the template has the text of its segments with the
values in the places of the blocks; and if it fails, it is with the error of the first block that fails,
where that block leaves the world. -/
theorem render_outcome (template : String) (scope : Bindings) :
    (∀ e, split template = .error e → render template scope = .fail e) ∧
    ∀ segments, split template = .ok segments →
      unsplit segments = template.toList ∧
      (∀ code, Sole segments code → render template scope = evaluate (.ofList code) scope) ∧
      ((¬∃ code, Sole segments code) → ∀ s w w',
        (∀ v, (render template scope).run s w = (.ok v, w') ↔
          ∃ vs, w.InTurn (Evaluates scope s) (blocks segments) vs w' ∧
            v = .str (filled segments vs)) ∧
        ∀ e, (render template scope).run s w = (.error e, w') ↔
          FirstFails scope s w (blocks segments) e w') := by
  refine ⟨fun e uncut => ?_, fun segments cut => ⟨(unsplit_split cut).1, ?_, ?_⟩⟩
  · rw [render, uncut, Action.ofExcept_error_bind]
  · exact fun code => render_of_sole cut
  · intro mixed s w w'
    exact ⟨fun v => render_eq_ok_iff cut mixed, fun e => render_eq_error_iff cut mixed⟩

/-- The second block fails: what the first one has stored stays, and the third one is not reached. -/
theorem render_outcome_storedThenUnknown :
    let s := Setting.ofDocument "doc.tex" true
    let template := "a@\x7b putSession('k', 1) \x7db@\x7b nope() \x7d@\x7b halt() \x7d"
    let segments := [.literal ['a'], .block " putSession('k', 1) ".toList, .literal ['b'],
      .block " nope() ".toList, .block " halt() ".toList]
    split template = .ok segments ∧ (¬∃ code, Sole segments code) ∧
      ∃ w', FirstFails [] s {} (blocks segments) (.unknownFunction "nope") w' ∧
        w'.session.get? "k" = some (.int 1) ∧ w'.session.haltCode? s.file.path = none := by
  intro s template segments
  have cut : split template = .ok segments := by decide +kernel
  have mixed : ¬∃ code, Sole segments code := by
    rintro ⟨code, sole⟩
    exact absurd (congrArg List.length sole.block) (by simp [segments])
  obtain ⟨-, -, outcome⟩ := (render_outcome template []).2 segments cut
  have failed : ((render template []).run s {}).1 = .error (.unknownFunction "nope") := by
    decide +kernel
  refine ⟨cut, mixed, _, ((outcome mixed s {} _).2 _).mp (Prod.ext failed rfl), ?_, ?_⟩
  · decide +kernel
  · decide +kernel

end DirectiveRunner.Template
