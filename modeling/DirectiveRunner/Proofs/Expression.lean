import DirectiveRunner.Expr.Eval
import DirectiveRunner.Proofs.Journal
/-!
# What expressions do

Evaluation does nothing by itself: it computes, and it calls helpers one after the other. So what holds
of computed values and of two actions in a row if it holds of both (`Action.Composes`) holds of an
expression if it holds of the helpers whose names are written in it (`Expr.calls`), whether they are
reached or not (`Expr.eval_satisfies`, `Template.render_satisfies`). One such thing is that a preorder on
worlds is kept (`Expr.eval_keeps_of`, `Template.render_keeps_of`): a preorder that every helper keeps is
kept by every expression and every template.

The helpers themselves show messages, store values, start processes on behalf of an expression and halt
the current file, and nothing else (`Helper.call_keeps`). Only one of them stores values, and only one
starts processes (`Helper.call_keeps_of`).
-/

namespace DirectiveRunner

/-- Whether an event is one that expressions do while a file is processed. -/
def Event.byExpression (file : Path) : Event → Prop
  | .shown (.message _ _) | .stored _ _ => True
  | .launched .expression f _ _ | .halted f _ => f = file
  | _ => False

/-! ## Helpers -/

def Helper.storer : String := "putSession"

def Helper.starter : String := "unsafelyExecuteSystemCommand"

/-- What is asked of a relation for the helpers to keep it that neither store a value nor start a
process. -/
structure KeptByOtherHelpers (R : World → World → Prop) (s : Setting) : Prop where
  /-- The change cache and the files may change. -/
  changed (w : World) (cache : Cache) (files : FileTree) :
    R w { w with session := { w.session with cache }, files }
  /-- The current file may be halted. -/
  halted (w : World) (code : Int64) :
    R w { w with session := w.session.halt s.file.path code,
                 journal := .halted s.file.path code :: w.journal }
  shown (w : World) (title text : String) : R w (w.noted (.shown (.message title text)))

/-- What is asked of a relation for helpers to keep it, the start of a process apart. -/
structure KeptByHelpers (R : World → World → Prop) (s : Setting) : Prop
    extends KeptByOtherHelpers R s where
  stored (w : World) (key : String) (v : Value) :
    R w { w with session := w.session.put key v, journal := .stored key v :: w.journal }

namespace Helper

variable {R : World → World → Prop} [IsPreorder World R] {s : Setting}

theorem hasChanged_keeps (h : KeptByOtherHelpers R s) (function : String) (args : List Value) :
    Action.Keeps R s (hasChanged function args) := by
  refine .bind_setting <| .bind (.ofExcept _) fun _ => .bind .world fun w => ?_
  refine .bind (.modify fun w => h.changed w _ _) fun _ => ?_
  split
  · exact .pure _
  · exact .fail _

theorem changed_keeps (h : KeptByOtherHelpers R s) (args : List Value) :
    Action.Keeps R s (changed args) :=
  .bind (.ofExcept _) fun _ => .bind (hasChanged_keeps h _ _) fun _ => .pure _

theorem unchanged_keeps (h : KeptByOtherHelpers R s) (args : List Value) :
    Action.Keeps R s (unchanged args) :=
  .bind (.ofExcept _) fun _ => .bind (hasChanged_keeps h _ _) fun _ => .pure _

theorem halt_keeps (h : KeptByOtherHelpers R s) (args : List Value) :
    Action.Keeps R s (halt args) := by
  have halts (code : Int64) : Action.Keeps R s (Action.halt code : Action EvalError Unit) :=
    fun w => h.halted w code
  refine .bind (.ofExcept _) fun _ => ?_
  split
  · exact .bind (halts _) fun _ => .pure _
  · exact .bind (halts _) fun _ => .pure _
  · exact .bind (.fail _) fun _ => .pure _

theorem putSession_keeps
    (stored : ∀ (w : World) key v,
      R w { w with session := w.session.put key v, journal := .stored key v :: w.journal })
    (args : List Value) : Action.Keeps R s (putSession args) := by
  refine .bind (.ofExcept _) fun _ => .bind (.ofExcept _) fun key w => ?_
  -- the value is stored and written down in one step
  exact stored w key _

theorem showMessage_keeps (h : KeptByOtherHelpers R s) (args : List Value) :
    Action.Keeps R s (showMessage args) := by
  refine .bind (.ofExcept _) fun _ => .bind (.ofExcept _) fun _ => .bind (.ofExcept _) fun _ => ?_
  exact .bind (.record fun w => h.shown w _ _) fun _ => .pure _

omit [IsPreorder World R] in
theorem setFiles_keeps (h : KeptByOtherHelpers R s) (files : FileTree) :
    Action.Keeps R s (Action.setFiles files : Action EvalError Unit) :=
  fun w => h.changed w w.session.cache files

theorem unsafelyExecuteSystemCommand_keeps (h : KeptByOtherHelpers R s)
    (launched : ∀ w line directory,
      R w (w.noted (.launched .expression s.file.path line directory)))
    (args : List Value) : Action.Keeps R s (unsafelyExecuteSystemCommand args) := by
  refine .bind (.ofExcept _) fun _ => .bind (.ofExcept _) fun command => ?_
  split
  · exact .fail _
  · refine .bind_setting <| .bind (.record fun w => launched w _ _) fun _ => .bind .world fun _ => ?_
    refine .bind (setFiles_keeps h _) fun _ => ?_
    split
    · exact .fail _
    · split
      · exact .pure _
      · exact .fail _
    · exact .pure _

theorem writeToFile_keeps (h : KeptByOtherHelpers R s) (args : List Value) :
    Action.Keeps R s (writeToFile args) := by
  refine .bind (.ofExcept _) fun _ => .bind_setting ?_
  refine .bind (.ofExcept _) fun _ => .bind (.ofExcept _) fun _ => .bind .world fun _ => ?_
  split
  · exact .bind (setFiles_keeps h _) fun _ => .pure _
  · exact .pure _

theorem acting_helpers : all.filter mayAct =
    [⟨"changed", .acts changed⟩, ⟨"unchanged", .acts unchanged⟩, ⟨"halt", .acts halt⟩,
      ⟨"putSession", .acts putSession⟩, ⟨"showMessage", .acts showMessage⟩,
      ⟨"unsafelyExecuteSystemCommand", .acts unsafelyExecuteSystemCommand⟩,
      ⟨"writeToFile", .acts writeToFile⟩] := rfl

/-- A call is one of no helper, of one that does not act, or of one of the few that may. -/
theorem call_cases {P : Action EvalError Value → Prop} {name : String} {args : List Value}
    (unknown : P (.fail (.unknownFunction name)))
    (looks : ∀ h ∈ all, h.mayAct = false → P (h.run args))
    (acts : ∀ h ∈ all.filter mayAct, h.name = name → P (h.run args)) : P (call name args) := by
  unfold call
  split
  · next h found =>
    have listed : h ∈ all := List.mem_of_find?_eq_some found
    cases may : h.mayAct with
    | false => exact looks h listed may
    | true => exact acts h (List.mem_filter.mpr ⟨listed, may⟩) (by simpa using List.find?_some found)
  · exact unknown

/-- Whatever helper is called, it keeps a relation that most helpers keep, if it is kept by storing a
value, should the helper be the one that stores, and by starting a process, should it be the one that
starts. -/
theorem call_keeps_of (h : KeptByOtherHelpers R s) {name : String}
    (stored : name = storer → ∀ (w : World) key v,
      R w { w with session := w.session.put key v, journal := .stored key v :: w.journal })
    (launched : name = starter → ∀ w line directory,
      R w (w.noted (.launched .expression s.file.path line directory)))
    (args : List Value) : Action.Keeps R s (call name args) := by
  refine call_cases (.fail _) (fun helper _ unable w => ?_) ?_
  · -- helpers that only compute something leave the world as it is
    rw [run_of_not_acts unable]
    exact refl_of R w
  · -- the others are few enough to be gone through one by one
    rw [acting_helpers]
    simp only [List.forall_mem_cons, List.not_mem_nil, false_imp_iff, implies_true, and_true]
    refine ⟨fun _ => changed_keeps h args, fun _ => unchanged_keeps h args,
      fun _ => halt_keeps h args, fun named => putSession_keeps (stored named.symm) args,
      fun _ => showMessage_keeps h args,
      fun named => unsafelyExecuteSystemCommand_keeps h (launched named.symm) args,
      fun _ => writeToFile_keeps h args⟩

/-- The relation between the worlds before and after an expression. -/
abbrev Effect (s : Setting) : World → World → Prop := World.Does (Event.byExpression s.file.path)

/-- Helpers keep a kind of events if it has the halts, the stores and the messages. -/
theorem keptByHelpers_does {P : Event → Prop} (halted : ∀ code, P (.halted s.file.path code))
    (stored : ∀ key v, P (.stored key v)) (shown : ∀ title text, P (.shown (.message title text))) :
    KeptByHelpers (World.Does P) s where
  changed w cache files := ⟨[], .of_eq rfl rfl, by simp⟩
  halted w code := ⟨[_], w.leads_halt s.file.path code, by simpa using halted code⟩
  shown w title text := .noted (shown title text) nofun
  stored w key v := ⟨[_], ⟨rfl, fun _ => rfl⟩, by simpa using stored key v⟩

/-- Whatever helper is called, it does nothing but what expressions do. -/
theorem call_keeps (name : String) (args : List Value) :
    Action.Keeps (Effect s) s (call name args) := by
  have kept : KeptByHelpers (Effect s) s :=
    keptByHelpers_does (fun _ => rfl) (fun _ _ => trivial) fun _ _ => trivial
  exact call_keeps_of kept.toKeptByOtherHelpers (fun _ => kept.stored)
    (fun _ w line directory => .noted rfl nofun) args

end Helper

/-! ## Expressions and templates -/

mutual

/-- The names that an expression calls anywhere, whether they are reached or not. -/
def Expr.calls : Expr → List String
  | .literal _ | .ident _ => []
  | .list items => callsAll items
  | .member target _ => target.calls
  | .index target key => target.calls ++ key.calls
  | .call name arguments => name :: callsAll arguments
  | .not operand | .negate operand => operand.calls
  | .binary _ left right => left.calls ++ right.calls
  | .choice condition onTrue onFalse => condition.calls ++ onTrue.calls ++ onFalse.calls
  | .sequence statements => callsAll statements

def Expr.callsAll : List Expr → List String
  | [] => []
  | e :: es => e.calls ++ callsAll es

end

/-- The names that an expression given as text calls; a text that is no expression calls nothing. -/
def callsOf (expression : String) : List String :=
  match Expr.parse expression with
  | .ok e => e.calls
  | .error _ => []

namespace Template

/-- A template that is a single block has the value of its expression. -/
theorem render_block {template : String} {code : List Char} (cut : split template = .ok [.block code])
    (scope : Bindings) : render template scope = evaluate (.ofList code) scope := by
  rw [render, cut]
  rfl

def Segment.calls : Segment → List String
  | .literal _ => []
  | .block code => callsOf (.ofList code)

/-- The names that a template calls in any of its blocks. -/
def calls (template : String) : List String :=
  match split template with
  | .ok segments => segments.flatMap Segment.calls
  | .error _ => []

theorem mem_of_soleBlock? {segments : List Segment} {code : List Char}
    (h : soleBlock? segments = some code) : .block code ∈ segments := by
  unfold soleBlock? at h
  dsimp only at h
  split at h
  · next code' one _ =>
    cases h
    have listed := List.mem_filterMap.mp (one ▸ List.mem_singleton_self code)
    obtain ⟨segment, mem, same⟩ := listed
    cases segment with
    | literal t => cases same
    | block code => cases same; exact mem
  · cases h

end Template

/-- What holds of whatever is only computed, and of one action after another if it holds of both. -/
structure Action.Composes (P : (α : Type) → Action EvalError α → Prop) : Prop where
  ofExcept {α : Type} (x : Except EvalError α) : P α (.ofExcept x)
  bind {α β : Type} {a : Action EvalError α} {f : α → Action EvalError β} :
    P α a → (∀ x, P β (f x)) → P β (a >>= f)

/-- What holds of every call of the helpers of some names. -/
def Helper.Satisfy (P : (α : Type) → Action EvalError α → Prop) (names : List String) : Prop :=
  ∀ name ∈ names, ∀ args, P Value (Helper.call name args)

section

variable {P : (α : Type) → Action EvalError α → Prop}

namespace Helper.Satisfy

theorem left {names names' : List String} (h : Satisfy P (names ++ names')) : Satisfy P names :=
  fun name mem => h name (List.mem_append_left _ mem)

theorem right {names names' : List String} (h : Satisfy P (names ++ names')) : Satisfy P names' :=
  fun name mem => h name (List.mem_append_right _ mem)

end Helper.Satisfy

namespace Action

theorem satisfies_ite {α : Type} {p : Prop} [Decidable p] {a b : Action EvalError α} (ha : P α a)
    (hb : P α b) : P α (if p then a else b) := by
  split <;> assumption

namespace Composes

variable {α β : Type} (c : Composes P)
include c

theorem pure (x : α) : P α (Pure.pure x) := c.ofExcept (.ok x)

theorem fail (e : EvalError) : P α (.fail e) := c.ofExcept (.error e)

/-- What follows a computation is only run with its result. -/
theorem bind_ofExcept {x : Except EvalError α} {f : α → Action EvalError β}
    (h : ∀ a, x = .ok a → P β (f a)) : P β (Action.ofExcept x >>= f) := by
  cases x with
  | error e => exact c.fail e
  | ok a => exact h a rfl

end Composes

end Action

variable (c : Action.Composes P)
include c

mutual

/-- What composes holds of an expression if it holds of the helpers that are called in it. -/
theorem Expr.eval_satisfies (scope : Bindings) :
    ∀ e : Expr, Helper.Satisfy P e.calls → P Value (e.eval scope)
  | .literal v, _ => c.pure v
  | .list items, h => c.bind (evalAll_satisfies scope items h) fun _ => c.pure _
  | .ident name, _ => by
    rw [eval]
    split
    · exact c.pure _
    · exact c.fail _
  | .member target name, h => c.bind (eval_satisfies scope target h) fun _ => c.ofExcept _
  | .index target key, h =>
    c.bind (eval_satisfies scope target h.left) fun _ =>
      c.bind (eval_satisfies scope key h.right) fun _ => c.ofExcept _
  | .call name arguments, h =>
    c.bind (evalAll_satisfies scope arguments fun inner mem => h inner (List.mem_cons_of_mem _ mem))
      fun _ => h name List.mem_cons_self _
  | .not operand, h =>
    c.bind (eval_satisfies scope operand h) fun _ => c.bind (c.ofExcept _) fun _ => c.pure _
  | .negate operand, h => c.bind (eval_satisfies scope operand h) fun _ => c.ofExcept _
  | .binary op left right, h => by
    have hl := eval_satisfies scope left h.left
    have hr := eval_satisfies scope right h.right
    cases op with
    | or =>
      refine c.bind hl fun _ => c.bind (c.ofExcept _) fun _ => Action.satisfies_ite (c.pure _) ?_
      exact c.bind hr fun _ => c.bind (c.ofExcept _) fun _ => c.pure _
    | and =>
      refine c.bind hl fun _ => c.bind (c.ofExcept _) fun _ => Action.satisfies_ite (c.pure _) ?_
      exact c.bind hr fun _ => c.bind (c.ofExcept _) fun _ => c.pure _
    | _ => exact c.bind hl fun _ => c.bind hr fun _ => c.ofExcept _
  | .choice condition onTrue onFalse, h =>
    c.bind (eval_satisfies scope condition h.left.left) fun _ => c.bind (c.ofExcept _) fun _ =>
      Action.satisfies_ite (eval_satisfies scope onTrue h.left.right)
        (eval_satisfies scope onFalse h.right)
  | .sequence statements, h => evalLast_satisfies scope .null statements h

theorem Expr.evalAll_satisfies (scope : Bindings) :
    ∀ es : List Expr, Helper.Satisfy P (callsAll es) → P (List Value) (evalAll scope es)
  | [], _ => c.pure []
  | e :: es, h =>
    c.bind (eval_satisfies scope e h.left) fun _ =>
      c.bind (evalAll_satisfies scope es h.right) fun _ => c.pure _

theorem Expr.evalLast_satisfies (scope : Bindings) (last : Value) :
    ∀ es : List Expr, Helper.Satisfy P (callsAll es) → P Value (evalLast scope last es)
  | [], _ => c.pure last
  | e :: es, h =>
    c.bind (eval_satisfies scope e h.left) fun v => evalLast_satisfies scope v es h.right

end

theorem evaluate_satisfies (expression : String) (scope : Bindings)
    (h : Helper.Satisfy P (callsOf expression)) : P Value (evaluate expression scope) := by
  apply c.bind_ofExcept
  intro e parsed
  rw [callsOf, parsed] at h
  exact e.eval_satisfies c scope h

namespace Template

theorem renderSegments_satisfies (scope : Bindings) :
    ∀ ss : List Segment, Helper.Satisfy P (ss.flatMap Segment.calls) →
      P String (renderSegments scope ss)
  | [], _ => c.pure ""
  | .literal _ :: ss, h => c.bind (renderSegments_satisfies scope ss h) fun _ => c.pure _
  | .block code :: ss, h =>
    c.bind (evaluate_satisfies c (.ofList code) scope h.left) fun _ =>
      c.bind (renderSegments_satisfies scope ss h.right) fun _ => c.pure _

/-- What composes holds of a template if it holds of the helpers that are called in its blocks. -/
theorem render_satisfies (template : String) (scope : Bindings)
    (h : Helper.Satisfy P (calls template)) : P Value (render template scope) := by
  apply c.bind_ofExcept
  intro segments parts
  rw [calls, parts] at h
  split
  · next code sole =>
    refine evaluate_satisfies c _ scope fun name mem => ?_
    exact h name (List.mem_flatMap.mpr ⟨_, mem_of_soleBlock? sole, mem⟩)
  · exact c.bind (renderSegments_satisfies c scope segments h) fun _ => c.pure _

end Template

end

variable {R : World → World → Prop} [IsPreorder World R] {s : Setting}

/-- The helpers of some names keep a relation. -/
def Helper.Keep (R : World → World → Prop) (s : Setting) (names : List String) : Prop :=
  ∀ name ∈ names, ∀ args, Action.Keeps R s (Helper.call name args)

/-- A preorder is kept by what comes after something that keeps it. -/
theorem Action.Composes.keeps : Composes fun _ => Keeps R s where
  ofExcept := .ofExcept
  bind := .bind

/-- An expression keeps whatever the helpers that it calls keep. -/
theorem Expr.eval_keeps_of (scope : Bindings) (e : Expr) (h : Helper.Keep R s e.calls) :
    Action.Keeps R s (e.eval scope) :=
  e.eval_satisfies .keeps scope h

theorem evaluate_keeps_of (expression : String) (scope : Bindings)
    (h : Helper.Keep R s (callsOf expression)) : Action.Keeps R s (evaluate expression scope) :=
  evaluate_satisfies .keeps expression scope h

/-- A template keeps whatever the helpers that it calls keep. -/
theorem Template.render_keeps_of (template : String) (scope : Bindings)
    (h : Helper.Keep R s (calls template)) : Action.Keeps R s (render template scope) :=
  render_satisfies .keeps template scope h

/-! Most relations are kept by all helpers, and then by all expressions and templates. -/

section

variable (calls : ∀ name args, Action.Keeps R s (Helper.call name args))
include calls

theorem Expr.eval_keeps (scope : Bindings) (e : Expr) : Action.Keeps R s (e.eval scope) :=
  e.eval_keeps_of scope fun name _ => calls name

theorem evaluate_keeps (expression : String) (scope : Bindings) :
    Action.Keeps R s (evaluate expression scope) :=
  evaluate_keeps_of expression scope fun name _ => calls name

theorem Template.render_keeps (template : String) (scope : Bindings) :
    Action.Keeps R s (render template scope) :=
  render_keeps_of template scope fun name _ => calls name

end

end DirectiveRunner
