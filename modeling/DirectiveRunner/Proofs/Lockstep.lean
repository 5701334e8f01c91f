import DirectiveRunner.Proofs.Expression
import DirectiveRunner.Run.Execution
import Mathlib.Data.List.Forall2
/-!
# Two runs side by side

Two actions run in *lockstep* if from worlds that differ in their journals only, and there only in
events that correspond, they give the same result or errors that correspond, and leave such worlds
(`Action.Lockstep`). Events correspond by a relation that is a parameter, and so do errors.

Nothing reads the journal while a file is processed. So most actions run in lockstep with themselves,
whatever relation there is on the events as long as it is reflexive: they are *blind* to the journal
(`Action.Blind`). All helpers are (`Helper.call_blind`), hence all expressions and templates, the
binding of arguments, and starting and judging processes. Jobs that are reported and judged alike run
the same entries in lockstep (`Command.runEntries_lockstep`). What is left for a comparison of two
programs are the places where they differ.
-/

namespace DirectiveRunner

/-- Two worlds with the same session and files, and with journals whose events correspond one by
one. -/
structure World.Beside (L : Event → Event → Prop) (w w' : World) : Prop where
  session : w'.session = w.session
  files : w'.files = w.files
  journal : List.Forall₂ L w.journal w'.journal

theorem World.Beside.rfl {L : Event → Event → Prop} [Std.Refl L] {w : World} : w.Beside L w where
  session := Eq.refl _
  files := Eq.refl _
  journal := List.forall₂_refl _

/-- If events that correspond are shown alike, two worlds side by side have shown the same. -/
theorem World.Beside.transcript_eq {L : Event → Event → Prop} {w w' : World} (h : w.Beside L w')
    (text : ∀ e e', L e e' → e'.text = e.text) : w'.transcript = w.transcript := by
  have same (es es' : List Event) (like : List.Forall₂ L es es') :
      es'.map Event.text = es.map Event.text := by
    induction like with
    | nil => rfl
    | cons like _ ih => rw [List.map_cons, List.map_cons, text _ _ like, ih]
  rw [transcript, transcript, List.map_reverse, List.map_reverse, same _ _ h.journal]

/-- The same result, or errors that correspond. -/
inductive SameResult {ε α : Type} (E : ε → ε → Prop) : Except ε α → Except ε α → Prop
  | ok (x : α) : SameResult E (.ok x) (.ok x)
  | error {e e' : ε} : E e e' → SameResult E (.error e) (.error e')

namespace SameResult

variable {ε ε' α : Type} {E : ε → ε → Prop} {r r' : Except ε α}

theorem rfl [Std.Refl E] : ∀ {r : Except ε α}, SameResult E r r
  | .ok x => .ok x
  | .error e => .error (Std.Refl.refl e)

theorem eq_ok {x : α} {r : Except ε α} (same : SameResult E (.ok x) r) : r = .ok x := by
  cases same
  exact Eq.refl _

theorem eq (same : SameResult Eq r r') : r' = r := by
  cases same with
  | ok x => exact Eq.refl _
  | error like => rw [like]

theorem mono {E' : ε → ε → Prop} (sub : ∀ e e', E e e' → E' e e') (same : SameResult E r r') :
    SameResult E' r r' := by
  cases same with
  | ok x => exact .ok x
  | error like => exact .error (sub _ _ like)

theorem mapError {E' : ε' → ε' → Prop} {f : ε → ε'} (h : ∀ e e', E e e' → E' (f e) (f e'))
    (same : SameResult E r r') : SameResult E' (r.mapError f) (r'.mapError f) := by
  cases same with
  | ok x => exact .ok x
  | error like => exact .error (h _ _ like)

end SameResult

namespace Action

variable {ε ε' α β : Type} {L : Event → Event → Prop} {E : ε → ε → Prop} {s : Setting}

/-- Run from worlds that are side by side, two actions give corresponding results and leave worlds
that are side by side. -/
def Lockstep (L : Event → Event → Prop) (E : ε → ε → Prop) (s : Setting) (a a' : Action ε α) : Prop :=
  ∀ w w', w.Beside L w' →
    SameResult E (a.run s w).1 (a'.run s w').1 ∧ (a.run s w).2.Beside L (a'.run s w').2

/-- Neither the result of an action nor what it does depends on the journal. -/
abbrev Blind (L : Event → Event → Prop) (s : Setting) (a : Action ε α) : Prop :=
  Lockstep L Eq s a a

namespace Lockstep

variable {a a' : Action ε α} {f f' : α → Action ε β}

/-- The two first actions run in lockstep, and whatever both yield, so do the two that follow. -/
theorem bind (ha : Lockstep L E s a a') (hf : ∀ x, Lockstep L E s (f x) (f' x)) :
    Lockstep L E s (a >>= f) (a' >>= f') := by
  intro w w' beside
  obtain ⟨same, after⟩ := ha w w' beside
  rw [run_bind, run_bind]
  rcases hr : a.run s w with ⟨r, w₁⟩
  rcases hr' : a'.run s w' with ⟨r', w₁'⟩
  rw [hr, hr'] at same after
  cases same with
  | ok x => exact hf x w₁ w₁' after
  | error like => exact ⟨.error like, after⟩

theorem pure (x : α) : Lockstep L E s (Pure.pure x) (Pure.pure x) :=
  fun _ _ beside => ⟨.ok x, beside⟩

theorem fail {e e' : ε} (like : E e e') :
    Lockstep L E s (Action.fail e : Action ε α) (Action.fail e') :=
  fun _ _ beside => ⟨.error like, beside⟩

theorem ofExcept [Std.Refl E] (x : Except ε α) :
    Lockstep L E s (Action.ofExcept x) (Action.ofExcept x) :=
  fun _ _ beside => ⟨.rfl, beside⟩

theorem haltCode? :
    Lockstep L E s (Action.haltCode? : Action ε (Option Int64)) Action.haltCode? := by
  intro w w' beside
  rw [run_haltCode?, run_haltCode?, beside.session]
  exact ⟨.ok _, beside⟩

/-- What follows a look at the setting is only run in that setting. -/
theorem bind_setting {f f' : Setting → Action ε β} (h : Lockstep L E s (f s) (f' s)) :
    Lockstep L E s (Action.setting >>= f) (Action.setting >>= f') := h

/-- What follows a look at the world may use the session and the files. -/
theorem bind_world {f f' : World → Action ε β}
    (h : ∀ w w' : World, w'.session = w.session → w'.files = w.files →
      Lockstep L E s (f w) (f' w')) :
    Lockstep L E s (Action.world >>= f) (Action.world >>= f') :=
  fun w w' beside => h w w' beside.session beside.files w w' beside

theorem modify {g g' : World → World} (h : ∀ w w', w.Beside L w' → (g w).Beside L (g' w')) :
    Lockstep L E s (Action.modify g : Action ε Unit) (Action.modify g') :=
  fun w w' beside => ⟨.ok (), h w w' beside⟩

theorem setFiles (files : FileTree) :
    Lockstep L E s (Action.setFiles files : Action ε Unit) (Action.setFiles files) :=
  modify fun _ _ beside => ⟨beside.session, rfl, beside.journal⟩

theorem modifySession (g : Session → Session) :
    Lockstep L E s (Action.modifySession g : Action ε Unit) (Action.modifySession g) :=
  modify fun _ _ beside => ⟨congrArg g beside.session, beside.files, beside.journal⟩

theorem record {e e' : Event} (like : L e e') :
    Lockstep L E s (Action.record e : Action ε Unit) (Action.record e') :=
  modify fun _ _ beside => ⟨beside.session, beside.files, .cons like beside.journal⟩

theorem report [Std.Refl L] (n : Notice) :
    Lockstep L E s (Action.report n : Action ε Unit) (Action.report n) :=
  record (Std.Refl.refl _)

theorem halt [Std.Refl L] (code : Int64) :
    Lockstep L E s (Action.halt code : Action ε Unit) (Action.halt code) :=
  bind_setting <| .bind (modifySession _) fun _ => record (Std.Refl.refl _)

theorem mapError {E' : ε' → ε' → Prop} {g : ε → ε'} (h : ∀ e e', E e e' → E' (g e) (g e'))
    (ha : Lockstep L E s a a') : Lockstep L E' s (a.mapError g) (a'.mapError g) := by
  intro w w' beside
  obtain ⟨same, after⟩ := ha w w' beside
  rw [run_mapError, run_mapError]
  exact ⟨same.mapError h, after⟩

theorem onFailure {closing closing' : Action ε Unit} (ha : Lockstep L E s a a')
    (hc : Lockstep L E s closing closing') :
    Lockstep L E s (a.onFailure closing) (a'.onFailure closing') := by
  intro w w' beside
  obtain ⟨same, after⟩ := ha w w' beside
  rcases hr : a.run s w with ⟨r, w₁⟩
  rcases hr' : a'.run s w' with ⟨r', w₁'⟩
  rw [hr, hr'] at same after
  simp only [run] at hr hr'
  simp only [run, Action.onFailure, hr, hr']
  cases same with
  | ok x => exact ⟨.ok x, after⟩
  | error like => exact ⟨.error like, (hc _ _ after).2⟩

theorem ite {c : Prop} [Decidable c] {b b' : Action ε α} (ha : Lockstep L E s a a')
    (hb : Lockstep L E s b b') :
    Lockstep L E s (if c then a else b) (if c then a' else b') := by
  split <;> assumption

theorem mono {E' : ε → ε → Prop} (ha : Lockstep L E s a a') (sub : ∀ e e', E e e' → E' e e') :
    Lockstep L E' s a a' :=
  fun w w' beside => ⟨(ha w w' beside).1.mono sub, (ha w w' beside).2⟩

/-- Errors that are equal correspond. -/
theorem of_blind [Std.Refl E] (ha : Lockstep L Eq s a a') : Lockstep L E s a a' :=
  ha.mono fun e _ same => same ▸ Std.Refl.refl e

end Lockstep

end Action

/-! ## Helpers -/

namespace Helper

variable {L : Event → Event → Prop} {s : Setting}

/-- What looks at the world looks at the session and the files. -/
theorem inspects_congr {w w' : World} (session : w'.session = w.session)
    (files : w'.files = w.files) (args : List Value) :
    ∀ h ∈ all, ∀ f, h.body = .inspects f → f s w' args = f s w args := by
  obtain ⟨se, fs, journal⟩ := w
  obtain ⟨_, _, journal'⟩ := w'
  obtain rfl : _ = se := session
  obtain rfl : _ = fs := files
  simp only [all, List.forall_mem_cons]
  and_intros <;> rintro f ⟨⟩ <;> rfl

/-- A helper that does not act is blind to the journal. -/
theorem run_blind_of_not_acts {h : Helper} (listed : h ∈ all) (unable : h.mayAct = false)
    (args : List Value) : Action.Blind L s (h.run args) := by
  intro w w' beside
  rw [run_of_not_acts unable, run_of_not_acts unable]
  refine ⟨?_, beside⟩
  unfold run
  split
  · exact .rfl
  · next f body =>
    have same := inspects_congr (s := s) beside.session beside.files args h listed f body
    simp only [Action.run, same]
    exact .rfl
  · next f body => simp [mayAct, body] at unable

theorem hasChanged_blind (function : String) (args : List Value) :
    Action.Blind L s (hasChanged function args) := by
  refine .bind_setting <| .bind (.ofExcept _) fun _ => .bind_world fun w w' session files => ?_
  rw [session, files]
  refine .bind (.modify fun _ _ beside => ⟨?_, rfl, beside.journal⟩) fun _ => ?_
  · rw [beside.session]
  · split
    · exact .pure _
    · exact .fail rfl

theorem changed_blind (args : List Value) : Action.Blind L s (changed args) :=
  .bind (.ofExcept _) fun _ => .bind (hasChanged_blind _ _) fun _ => .pure _

theorem unchanged_blind (args : List Value) : Action.Blind L s (unchanged args) :=
  .bind (.ofExcept _) fun _ => .bind (hasChanged_blind _ _) fun _ => .pure _

theorem halt_blind [Std.Refl L] (args : List Value) : Action.Blind L s (halt args) := by
  refine .bind (.ofExcept _) fun _ => ?_
  split
  · exact .bind (.halt _) fun _ => .pure _
  · exact .bind (.halt _) fun _ => .pure _
  · exact .bind (.fail rfl) fun _ => .pure _

theorem putSession_blind [Std.Refl L] (args : List Value) : Action.Blind L s (putSession args) := by
  refine .bind (.ofExcept _) fun _ => .bind (.ofExcept _) fun key => ?_
  refine .bind (.modifySession _) fun _ => .bind (.record (Std.Refl.refl _)) fun _ => .pure _

theorem showMessage_blind [Std.Refl L] (args : List Value) :
    Action.Blind L s (showMessage args) := by
  refine .bind (.ofExcept _) fun _ => .bind (.ofExcept _) fun _ => .bind (.ofExcept _) fun _ => ?_
  exact .bind (.report _) fun _ => .pure _

theorem unsafelyExecuteSystemCommand_blind [Std.Refl L] (args : List Value) :
    Action.Blind L s (unsafelyExecuteSystemCommand args) := by
  refine .bind (.ofExcept _) fun _ => .bind (.ofExcept _) fun command => ?_
  split
  · exact .fail rfl
  · refine .bind_setting <| .bind (.record (Std.Refl.refl _)) fun _ => ?_
    refine .bind_world fun w w' _ files => ?_
    rw [files]
    refine .bind (.setFiles _) fun _ => ?_
    split
    · exact .fail rfl
    · split
      · exact .pure _
      · exact .fail rfl
    · exact .pure _

theorem writeToFile_blind (args : List Value) : Action.Blind L s (writeToFile args) := by
  refine .bind (.ofExcept _) fun _ => .bind_setting <| .bind (.ofExcept _) fun _ => ?_
  refine .bind (.ofExcept _) fun _ => .bind_world fun w w' _ files => ?_
  rw [files]
  split
  · exact .bind (.setFiles _) fun _ => .pure _
  · exact .pure _

/-- No helper looks at the journal. -/
theorem call_blind [Std.Refl L] (name : String) (args : List Value) :
    Action.Blind L s (call name args) := by
  refine call_cases (.fail rfl) (fun _ listed unable => run_blind_of_not_acts listed unable args) ?_
  rw [acting_helpers]
  simp only [List.forall_mem_cons, List.not_mem_nil, false_imp_iff, implies_true, and_true]
  exact ⟨fun _ => changed_blind args, fun _ => unchanged_blind args, fun _ => halt_blind args,
    fun _ => putSession_blind args, fun _ => showMessage_blind args,
    fun _ => unsafelyExecuteSystemCommand_blind args, fun _ => writeToFile_blind args⟩

end Helper

/-! ## Expressions and templates -/

variable {L : Event → Event → Prop} {s : Setting}

/-- What does not look at the journal may be followed by what does not either. -/
theorem Action.Composes.blind : Composes fun _ => Blind L s where
  ofExcept := .ofExcept
  bind := .bind

/-- No expression looks at the journal. -/
theorem Expr.eval_blind [Std.Refl L] (scope : Bindings) (e : Expr) :
    Action.Blind L s (e.eval scope) :=
  e.eval_satisfies .blind scope fun name _ => Helper.call_blind name

theorem evaluate_blind [Std.Refl L] (expression : String) (scope : Bindings) :
    Action.Blind L s (evaluate expression scope) :=
  evaluate_satisfies .blind expression scope fun name _ => Helper.call_blind name

theorem Template.render_blind [Std.Refl L] (template : String) (scope : Bindings) :
    Action.Blind L s (render template scope) :=
  render_satisfies .blind template scope fun name _ => Helper.call_blind name

/-! ## Arguments -/

namespace Binding

theorem argumentValue_blind [Std.Refl L] (d : Directive) (a : Argument) :
    Action.Blind L s (argumentValue d a) := by
  have rendered (part : ArgumentPart) (template : String) : Action.Blind L s
      ((Template.render template (scope d)).mapError
        (RunError.argumentEvaluation a.identifier part)) :=
    .mapError (fun _ _ => congrArg _) (Template.render_blind template _)
  refine .ite (.fail rfl) ?_
  split
  · exact rendered .flag _
  · exact rendered .default _
  · exact .pure _

theorem bindArguments_blind [Std.Refl L] (d : Directive) :
    ∀ (arguments : List Argument) (bound : Bindings),
      Action.Blind L s (bindArguments d bound arguments)
  | [], _ => .pure _
  | a :: as, _ => .bind (argumentValue_blind d a) fun _ => bindArguments_blind d as _

/-- Arguments depend on nothing of a directive but its parameters. -/
theorem bindArguments_congr {d d' : Directive} (h : d'.parameters = d.parameters) :
    ∀ (arguments : List Argument) (bound : Bindings),
      bindArguments d' bound arguments = bindArguments d bound arguments
  | [], _ => rfl
  | a :: as, bound => by
    have value : argumentValue d' a = argumentValue d a := by
      simp only [argumentValue, scope, referenceValue, Directive.reference?, h]
    simp only [bindArguments, value, bindArguments_congr h as]

/-- Directives with the same parameters bind their arguments in lockstep. -/
theorem bind_lockstep [Std.Refl L] (r : Rule) {d d' : Directive}
    (h : d'.parameters = d.parameters) : Action.Lockstep L Eq s (bind r d) (bind r d') := by
  have same : bind r d' = bind r d := by
    simp only [bind, unknownKeys, referenceValue, Directive.reference?, bindArguments_congr h, h]
  rw [same]
  refine .bind (.record (Std.Refl.refl _)) fun _ => ?_
  split
  · exact bindArguments_blind d _ _
  · exact .fail rfl

end Binding

/-! ## Processes -/

namespace Command

theorem judge_blind [Std.Refl L] (j : Job) (code : Int64) :
    Action.Blind L s (judge j code) := by
  refine .bind (.record (Std.Refl.refl _)) fun _ => ?_
  refine .bind (.mapError (fun _ _ => congrArg _) (evaluate_blind _ _)) fun v => ?_
  split
  · exact .pure _
  · exact .fail rfl

theorem conclude_blind [Std.Refl L] (line : CommandLine)
    (outcome : Outcome) : Action.Blind L s (conclude line outcome) := by
  have ended : Action.Blind L s (exitCode line outcome.ending) := by
    unfold exitCode
    split
    · exact .pure _
    · exact .fail rfl
    · exact .bind_setting (.fail rfl)
  exact .bind_setting <| .bind (.setFiles _) fun _ =>
    .ite (.bind (.report _) fun _ => ended) ended

theorem launch_blind [Std.Refl L] (line : CommandLine)
    (directory : Path) : Action.Blind L s (launch line directory) := by
  refine .bind_setting ?_
  split
  · exact .fail rfl
  · refine .bind (.record (Std.Refl.refl _)) fun _ => .bind_world fun w w' _ files => ?_
    rw [files]
    exact conclude_blind line _

/-! ## Entries -/

/-- Entries of the two jobs are reported and judged alike, and what a dry run shows of them
corresponds. -/
structure Job.Like (L : Event → Event → Prop) (j j' : Job) : Prop where
  label : j'.label = j.label
  exit : j'.command.exit = j.command.exit
  dryCommand (line : CommandLine) (directory : Path) :
    L (.shown (.dryCommand j.heading line directory)) (.shown (.dryCommand j'.heading line directory))
  dryBoolean (b : Bool) : L (.shown (.dryBoolean j.heading b)) (.shown (.dryBoolean j'.heading b))

variable {E : RunError → RunError → Prop} [Std.Refl L] [Std.Refl E] {j j' : Job}

theorem spawn_lockstep (like : j.Like L j') (line : CommandLine) :
    Action.Lockstep L E s (spawn j line) (spawn j' line) := by
  have judged (code : Int64) : judge j' code = judge j code := by simp only [judge, like.exit]
  refine .bind_setting <| .ite ?_ ?_
  · exact .bind (.record (like.dryCommand _ _)) fun _ => .pure _
  · rw [like.label]
    refine .bind (.report _) fun _ => .bind (.onFailure (launch_blind _ _).of_blind (.report _)) ?_
    intro code
    rw [judged]
    exact .bind (judge_blind j code).of_blind fun _ => .bind (.report _) fun _ => .pure _

theorem runEntry_lockstep (like : j.Like L j') (v : Value) :
    Action.Lockstep L E s (runEntry j v) (runEntry j' v) := by
  cases v with
  | bool b =>
    refine .bind_setting <| .ite ?_ ?_
    · exact .bind (.record (like.dryBoolean b)) fun _ => .pure _
    · rw [like.label]
      exact .bind (.report _) fun _ => .bind (.report _) fun _ => .pure _
  | command line => exact spawn_lockstep like line
  | _ => exact .fail (Std.Refl.refl _)

/-- The same entries are run in lockstep for jobs that are alike. -/
theorem runEntries_lockstep (like : j.Like L j') : ∀ vs : List Value,
    Action.Lockstep L E s (runEntries j vs) (runEntries j' vs)
  | [] => .pure true
  | v :: vs => by
    refine .bind (runEntry_lockstep like v) fun success => .bind_setting ?_
    refine .bind (.record (Std.Refl.refl _)) fun _ => .ite (.pure _) ?_
    refine .bind .haltCode? fun code => .ite (.pure _) ?_
    exact .bind (runEntries_lockstep like vs) fun _ => .pure _

end Command

/-! ## Halts -/

namespace Execution

theorem stopped?_blind [Std.Refl L] : Action.Blind L s stopped? := by
  refine .bind .haltCode? fun code => ?_
  split
  · exact .pure _
  · exact .bind (.report _) fun _ => .pure _

theorem progress_blind [Std.Refl L] (st : Status) :
    Action.Blind L s (progress st) := by
  refine .bind stopped?_blind fun x => ?_
  split <;> exact .pure _

end Execution

end DirectiveRunner
