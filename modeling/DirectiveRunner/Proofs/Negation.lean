import DirectiveRunner.Proofs.DryRun
import DirectiveRunner.Proofs.Lockstep
import DirectiveRunner.Proofs.Print
import DirectiveRunner.Proofs.Rounds
/-!
# Conditions and their negations

A directive can ask for a condition or for its opposite: `while` and `if`, or `until` and `unless`.
The opposite can also be written as an expression. `negation` puts an expression into parentheses and a
`!` before it, and whatever is read from the text of a single statement is then read as the operand of
the `!` (`parse_negation`): no token goes on with a closing parenthesis, so the tokens stay what they
are (`Lexed.append`), and a ternary in parentheses is a primary.

A directive with `until e` and the one with `while !(e)` are executed in lockstep, and so are those
with `unless e` and `if !(e)` (`execute_negated`). They differ in two places, in how the conditional is
shown in a dry run and in the condition that is asked (`Event.Like`). Both deny the truth value of the
expression, the one after it was taken as the answer of a condition, the other by the operator `!`,
and both only take truth values, so the errors for other values differ in their wording
(`RunError.Like`).
-/

namespace DirectiveRunner

open DirectiveRunner.Expr (Token Mark tokenize Lexed)
open DirectiveRunner.Grammar (Program Ternary)

/-! ## The negation of an expression -/

/-- The text of the negation of an expression. -/
def negation (e : String) : String := "!(" ++ e ++ ")"

theorem toList_negation (e : String) : (negation e).toList = '!' :: '(' :: (e.toList ++ [')']) := by
  simp [negation]

/-- The tokens of an expression are found between the parentheses. -/
theorem tokenize_negation {e : String} {ts : List Token} (h : tokenize e.toList = .ok ts) :
    tokenize (negation e).toList =
      .ok (.mark .bang :: .mark .openParen :: ts ++ [.mark .closeParen]) := by
  have closing : Lexed [')'] [.mark .closeParen] := .word (.mark (m := .closeParen) (by rfl)) .nil
  have inner := (Expr.tokenize_eq_ok_iff.mp h).append closing fun c first => by
    obtain rfl : ')' = c := by simpa using first
    exact ⟨by decide +kernel, by decide +kernel, by decide⟩
  have opening : Expr.Word ['('] (.mark .openParen) (e.toList ++ [')']) :=
    .mark (m := .openParen) (by rfl)
  have bang : Expr.Word ['!'] (.mark .bang) ('(' :: (e.toList ++ [')'])) :=
    .mark (m := .bang) (by rfl)
  rw [toList_negation, Expr.tokenize_eq_ok_iff]
  exact .word bang (.word opening inner)

/-- A program without the keyword at its start and without semicolons is a single expression. -/
theorem ternary_of_program {ts : List Token} {t : Expr} (h : Program ts t)
    (plain : ts.head? ≠ some (.ident "return")) (single : .mark .semicolon ∉ ts) : Ternary ts t := by
  cases h with
  | terminated h => simp at single
  | bare h =>
    cases h with
    | single h =>
      cases h with
      | plain h _ => exact h
      | returned h => simp at plain
    | sequence h several =>
      cases h with
      | last h => simp at several
      | more h hs => simp at single

/-- Whatever is read from the text of a single statement is negated by `!` and parentheses. -/
theorem parse_negation {e : String} {ts : List Token} {t : Expr}
    (read : tokenize e.toList = .ok ts) (parsed : Expr.parse e = .ok t)
    (plain : ts.head? ≠ some (.ident "return")) (single : .mark .semicolon ∉ ts) :
    Expr.parse (negation e) = .ok (.not t) := by
  have program := Parse.program_of_parseTokens ((Parse.parse_of_tokenize read).mp parsed)
  have inner := ternary_of_program program plain single
  have negated : Ternary (.mark .bang :: .mark .openParen :: ts ++ [.mark .closeParen]) (.not t) :=
    (Grammar.Unary.not (Grammar.Primary.paren inner).unary).ternary
  exact (Parse.parse_of_tokenize (tokenize_negation read)).mpr
    (Parse.parseTokens_of_program (.bare (.single (.plain negated (by simp)))))

/-! ## What may differ -/

/-- The second conditional asks for the negation of what the first one asks. -/
inductive Conditional.Negated (e : String) : Conditional → Conditional → Prop
  | loop : Negated e (.until e) (.while (negation e))
  | guard : Negated e (.unless e) (.onlyIf (negation e))

/-- The same event, or events that differ in the conditional that is shown in a dry run, or in the
condition that is asked. -/
inductive Event.Like (e : String) : Event → Event → Prop
  | same (event : Event) : Like e event event
  | checking : Like e (.checking e) (.checking (negation e))
  | dryCommand {c c' : Conditional} (h : c.Negated e c') (label : EntryLabel) (authors : List String)
      (line : CommandLine) (directory : Path) :
    Like e (.shown (.dryCommand ⟨label, authors, c⟩ line directory))
      (.shown (.dryCommand ⟨label, authors, c'⟩ line directory))
  | dryBoolean {c c' : Conditional} (h : c.Negated e c') (label : EntryLabel) (authors : List String)
      (value : Bool) :
    Like e (.shown (.dryBoolean ⟨label, authors, c⟩ value))
      (.shown (.dryBoolean ⟨label, authors, c'⟩ value))

/-- The same error, or the errors for a condition that has no truth value, the one of a conditional and
the other of the operator. -/
inductive RunError.Like (e : String) : RunError → RunError → Prop
  | same (error : RunError) : Like e error error
  | nonBoolean (type : String) :
    Like e
      (.evaluation (.wrongType
        ("the conditional '" ++ e ++ "' must yield a boolean, found a " ++ type)))
      (.evaluation (.wrongType ("operator '!' expects a boolean, found a " ++ type)))
  | inRule {error error' : RunError} (identifier : String) (location : Path) :
    Like e error error' →
      Like e (.inRule identifier location error) (.inRule identifier location error')

instance (e : String) : Std.Refl (Event.Like e) := ⟨.same⟩

instance (e : String) : Std.Refl (RunError.Like e) := ⟨.same⟩

theorem RunError.Like.within {e : String} {error error' : RunError} (h : Like e error error')
    (identifier : String) (ruleFile : Path) :
    Like e (error.within identifier ruleFile) (error'.within identifier ruleFile) := by
  cases h with
  | same => exact .same _
  | nonBoolean type => exact .inRule _ _ (.nonBoolean type)
  | inRule _ _ h => exact .inRule _ _ h

/-- Runs that go side by side start the same processes. -/
theorem launches_eq_of_like {e : String} {es es' : List Event}
    (h : List.Forall₂ (Event.Like e) es es') :
    es'.filter Event.isLaunch = es.filter Event.isLaunch := by
  induction h with
  | nil => rfl
  | cons like _ ih =>
    cases like with
    | same event => simp [List.filter_cons, ih]
    | _ => simpa [List.filter_cons, Event.isLaunch] using ih

/-! ## Conditions -/

variable {e : String} {s : Setting} {c c' : Conditional}

/-- Two actions run in lockstep up to the places where a conditional and the one that asks for the
negation differ. -/
abbrev Action.Alongside {α : Type} (e : String) (s : Setting) (a a' : Action RunError α) : Prop :=
  Action.Lockstep (Event.Like e) (RunError.Like e) s a a'

theorem Action.mapError_bind {ε ε' α β : Type} (a : Action ε α) (f : α → Action ε β) (g : ε → ε') :
    (a >>= f).mapError g = a.mapError g >>= fun x => (f x).mapError g := by
  funext s w
  change ((a >>= f).mapError g).run s w = (a.mapError g >>= fun x => (f x).mapError g).run s w
  rw [run_mapError, run_bind, run_bind, run_mapError]
  rcases a.run s w with ⟨_ | x, w₁⟩
  · rfl
  · exact (run_mapError ..).symm

namespace Condition

/-- To deny the answer of a condition is to ask its negation. -/
theorem holds_negation {t : Expr} (parsed : Expr.parse e = .ok t)
    (negated : Expr.parse (negation e) = .ok (.not t)) (scope : Bindings) :
    Action.Alongside e s (do return !(← holds e scope)) (holds (negation e) scope) := by
  have operator : evaluate (negation e) scope =
      t.eval scope >>= fun v => Action.ofExcept (Expr.needBool "!" v) >>= fun b =>
        pure (.bool (!b)) := by
    rw [evaluate_of_parse negated, Expr.eval]
  simp only [holds, Evaluator.evaluate_standard, evaluate_of_parse parsed, operator, bind_assoc,
    Action.mapError_bind]
  refine .bind (.record .checking) fun _ => ?_
  refine .bind (.mapError (E := Eq) (fun _ _ same => same ▸ .same _) (t.eval_blind scope)) fun v => ?_
  -- both places take the same values
  cases truth : v.asBool? with
  | some b =>
    have needed : Expr.needBool "!" v = .ok b := by rw [Expr.needBool, truth]
    rw [needed]
    exact .pure (!b)
  | none =>
    have needed : Expr.needBool "!" v =
        .error (.wrongType ("operator '!' expects a boolean, found a " ++ v.typeName)) := by
      rw [Expr.needBool, truth]
      rfl
    rw [needed]
    exact .fail (.nonBoolean v.typeName)

/-- An action asks for the opposite of an expression, which is written down as `x`: it yields an answer
exactly if the expression yields a truth value, and then the other one. -/
def Denies (s : Setting) (scope : Bindings) (t : Expr) (x : String) (a : Action RunError Bool) : Prop :=
  ∀ w b w', a.run s w = (.ok b, w') ↔
    (t.eval scope).run s (w.noted (.checking x)) = (.ok (.bool !b), w')

/-- A condition holds if its expression yields the truth value. -/
theorem holds_ok_iff {t : Expr} (parsed : Expr.parse e = .ok t) {scope : Bindings} {w w' : World}
    {b : Bool} : (holds e scope).run s w = (.ok b, w') ↔
      (t.eval scope).run s (w.noted (.checking e)) = (.ok (.bool b), w') := by
  rw [holds, Action.run_record_bind, Evaluator.evaluate_standard, evaluate_of_parse parsed,
    Action.run_bind, Action.run_mapError]
  rcases (t.eval scope).run s (w.noted (.checking e)) with ⟨error | v, w₁⟩
  · simp [Except.mapError]
  · cases v <;> simp [Except.mapError, Value.asBool?]

theorem denies_of_opposite {t : Expr} (parsed : Expr.parse e = .ok t) (scope : Bindings) :
    Denies s scope t e (do return !(← holds e scope)) := by
  intro w b w'
  rw [← holds_ok_iff parsed, Action.run_bind]
  rcases (holds e scope).run s w with ⟨error | b', w₁⟩
  · simp
  · cases b <;> simp

theorem denies_of_negation {t : Expr} (negated : Expr.parse (negation e) = .ok (.not t))
    (scope : Bindings) : Denies s scope t (negation e) (holds (negation e) scope) := by
  intro w b w'
  rw [holds_ok_iff negated, Expr.eval, Action.run_bind]
  rcases (t.eval scope).run s (w.noted (.checking (negation e))) with ⟨error | v, w₁⟩
  · simp
  · cases v with
    | bool b' =>
      show (Except.ok (Value.bool !b'), w₁) = _ ↔ _
      cases b <;> simp
    | _ =>
      show (Except.error _, w₁) = _ ↔ _
      simp

/-- The guards let the same directives run. -/
theorem allows_alongside {t : Expr} (parsed : Expr.parse e = .ok t)
    (negated : Expr.parse (negation e) = .ok (.not t)) (h : c.Negated e c') (scope : Bindings) :
    Action.Alongside e s (allows scope c) (allows scope c') := by
  cases h with
  | loop => exact .pure true
  | guard => exact holds_negation parsed negated scope

/-- The loops ask for the same rounds. -/
theorem repeats_alongside {t : Expr} (parsed : Expr.parse e = .ok t)
    (negated : Expr.parse (negation e) = .ok (.not t)) (h : c.Negated e c') (scope : Bindings) :
    Action.Alongside e s (repeats scope c) (repeats scope c') := by
  cases h with
  | loop => exact holds_negation parsed negated scope
  | guard => exact .pure false

end Condition

/-! ## Commands -/

namespace Command

variable {r : Rule} {command : RuleCommand}

/-- The conditional of a directive only shows in the headings of dry runs. -/
theorem job_like (h : c.Negated e c') :
    Job.Like (Event.Like e) ⟨r, command, c⟩ ⟨r, command, c'⟩ where
  label := rfl
  exit := rfl
  dryCommand := .dryCommand h _ _
  dryBoolean := .dryBoolean h _ _

theorem run_alongside (h : c.Negated e c') (scope : Bindings) :
    Action.Alongside e s (run ⟨r, command, c⟩ scope) (run ⟨r, command, c'⟩ scope) := by
  refine .bind_setting <| .bind (.record (.same _)) fun _ => ?_
  refine .bind (.mapError (E := Eq) (fun _ _ same => same ▸ .same _) (Template.render_blind _ _)) ?_
  exact fun v => .bind (.record (.same _)) fun _ => runEntries_lockstep (job_like h) _

end Command

/-! ## Directives -/

namespace Execution

variable {r : Rule} {d : Directive}

theorem runCommand_alongside (h : c.Negated e c') (scope : Bindings) (st : Status)
    (command : RuleCommand) :
    Action.Alongside e s (runCommand r c scope st command) (runCommand r c' scope st command) := by
  refine .bind (Command.run_alongside h scope) fun success => .bind (.record (.same _)) fun _ => ?_
  refine .bind_setting <| .ite (progress_blind _).of_blind <| .ite ?_ (progress_blind _).of_blind
  exact .bind (.halt _) fun _ => .pure _

theorem runCommands_alongside (h : c.Negated e c') (scope : Bindings) :
    ∀ (commands : List RuleCommand) (st : Status), Action.Alongside e s
      (runCommands r c scope st commands) (runCommands r c' scope st commands)
  | [], _ => .pure _
  | command :: rest, st => by
    refine .bind (runCommand_alongside h scope st command) fun p => ?_
    split
    · exact runCommands_alongside h scope rest _
    · exact .pure _

section

variable {t : Expr} (parsed : Expr.parse e = .ok t)
  (negated : Expr.parse (negation e) = .ok (.not t)) (h : c.Negated e c')

include parsed negated h

theorem round_alongside (scope : Bindings) (number : UInt32) (st : Status) :
    Action.Alongside e s (round r { d with conditional := c } scope number st)
      (round r { d with conditional := c' } scope number st) := by
  refine .bind (.record (.same _)) fun _ => .bind (runCommands_alongside h scope _ st) fun p => ?_
  split
  · exact .pure _
  · refine .bind (Condition.repeats_alongside parsed negated h scope) fun again => ?_
    refine .bind stopped?_blind.of_blind fun x => ?_
    split <;> exact .pure _

/-- The rounds go side by side as long as there are any. -/
theorem rounds_alongside (scope : Bindings) (left : Nat) : ∀ (number : UInt32) (st : Status),
    Action.Alongside e s (rounds r { d with conditional := c } scope number st left)
      (rounds r { d with conditional := c' } scope number st left) := by
  induction left with
  | zero =>
    intro number st
    rw [rounds, rounds]
    refine .bind (round_alongside parsed negated h scope number st) fun p => ?_
    split
    · exact .pure _
    · exact .bind_setting (.fail (.same _))
  | succ left ih =>
    intro number st
    rw [rounds, rounds]
    refine .bind (round_alongside parsed negated h scope number st) fun p => ?_
    split
    · exact .pure _
    · exact ih _ _

theorem executeRule_alongside (r : Rule) (d : Directive) :
    Action.Alongside e s (executeRule r { d with conditional := c })
      (executeRule r { d with conditional := c' }) := by
  refine .bind (Binding.bind_lockstep r (by rfl)).of_blind fun scope => ?_
  refine .bind (Condition.allows_alongside parsed negated h scope) fun allowed => ?_
  refine .bind stopped?_blind.of_blind fun x => ?_
  split
  · exact .pure _
  · exact .ite (.bind_setting (rounds_alongside parsed negated h scope _ _ _)) (.pure _)

theorem execute_alongside (d : Directive) :
    Action.Alongside e s (execute { d with conditional := c })
      (execute { d with conditional := c' }) := by
  refine .bind .haltCode? fun code => ?_
  split
  · exact .pure _
  · refine .bind_setting <| .bind (.record (.same _)) fun _ => .bind_world fun w w' _ files => ?_
    rw [files]
    refine .bind (.ofExcept _) fun ruleFile => ?_
    refine .mapError (fun _ _ like => RunError.Like.within like _ _) ?_
    refine .bind_world fun w w' _ files => ?_
    rw [files]
    exact .bind (.ofExcept _) fun r => executeRule_alongside parsed negated h r d

end

/-- Two actions go the same way from a world. -/
structure SameCourse (e : String) (s : Setting) (w : World) (a a' : Action RunError Status) : Prop where
  /-- They give the same status, or they fail with errors of the same kind. -/
  result : SameResult (RunError.Like e) (a.run s w).1 (a'.run s w).1
  /-- They leave the same session and the same files, after events that correspond one by one. -/
  world : World.Beside (Event.Like e) (a.run s w).2 (a'.run s w).2
  /-- They have started the same processes, in the same order. -/
  launches : (a'.run s w).2.journal.filter Event.isLaunch =
    (a.run s w).2.journal.filter Event.isLaunch

theorem SameCourse.of_alongside {a a' : Action RunError Status} (h : Action.Alongside e s a a')
    (w : World) : SameCourse e s w a a' where
  result := (h w w .rfl).1
  world := (h w w .rfl).2
  launches := launches_eq_of_like (h w w .rfl).2.journal

/-- **To deny a condition is to ask its negation.** If the text of an expression is read as a single
statement, without `return` and without semicolons, then the text in parentheses after a `!` is read
as the negation. `until` and `unless` with the expression, and `while` and `if` with the negation, go on
exactly if the expression is false. A directive `until` the expression is executed as the one `while`
the negation, and a directive `unless` the expression as the one `if` the negation, whatever the rule,
the parameters and the world: with the same status or an error of the same kind, after the same events,
and it leaves the same session and files and has started the same processes. All that may differ is the
conditional that a dry run shows, and the wording of the error for a condition that has no truth
value. -/
theorem execute_negated {e : String} {ts : List Token} {t : Expr}
    (read : tokenize e.toList = .ok ts) (parsed : Expr.parse e = .ok t)
    (plain : ts.head? ≠ some (.ident "return")) (single : .mark .semicolon ∉ ts)
    (s : Setting) (w : World) (d : Directive) :
    Expr.parse (negation e) = .ok (.not t) ∧
      (∀ scope, Condition.Denies s scope t e (Condition.repeats scope (.until e)) ∧
        Condition.Denies s scope t e (Condition.allows scope (.unless e)) ∧
        Condition.Denies s scope t (negation e) (Condition.repeats scope (.while (negation e))) ∧
        Condition.Denies s scope t (negation e) (Condition.allows scope (.onlyIf (negation e)))) ∧
      ∀ c c', Conditional.Negated e c c' →
        (∀ r, SameCourse e s w (executeRule r { d with conditional := c })
          (executeRule r { d with conditional := c' })) ∧
        SameCourse e s w (execute { d with conditional := c })
          (execute { d with conditional := c' }) := by
  have negated := parse_negation read parsed plain single
  refine ⟨negated, fun scope => ?_, fun c c' h => ⟨fun r => ?_, ?_⟩⟩
  · have opposite := Condition.denies_of_opposite (s := s) parsed scope
    have negation := Condition.denies_of_negation (s := s) negated scope
    exact ⟨opposite, opposite, negation, negation⟩
  · exact .of_alongside (executeRule_alongside parsed negated h r d) w
  · exact .of_alongside (execute_alongside parsed negated h d) w

/-- A loop whose condition halts the file ends with that halt, whether it is denied or negated. -/
theorem execute_negated_halt :
    tokenize "halt(3)".toList =
        .ok [.ident "halt", .mark .openParen, .int 3, .mark .closeParen] ∧
      Expr.parse "!(halt(3))" = .ok (.not (.call "halt" [.literal (.int 3)])) ∧
      ((execute { identifier := "check", conditional := .until "halt(3)" }).run
        (.ofDocument "doc.tex" false) failingCheck).1 = .ok (.ofHaltCode 3) ∧
      ((execute { identifier := "check", conditional := .while "!(halt(3))" }).run
        (.ofDocument "doc.tex" false) failingCheck).1 = .ok (.ofHaltCode 3) := by
  have read : tokenize "halt(3)".toList =
      .ok [.ident "halt", .mark .openParen, .int 3, .mark .closeParen] := by decide +kernel
  have parsed : Expr.parse "halt(3)" = .ok (.call "halt" [.literal (.int 3)]) :=
    (Parse.parse_of_tokenize read).mpr (by rfl)
  obtain ⟨negated, -, same⟩ := execute_negated read parsed (by decide) (by decide)
    (.ofDocument "doc.tex" false) failingCheck { identifier := "check" }
  have ended := Action.run_eq_ok
    (a := execute { identifier := "check", conditional := .until "halt(3)" })
    (s := .ofDocument "doc.tex" false) (w := failingCheck) (x := .ofHaltCode 3) (by decide +kernel)
  have result := (same _ _ .loop).2.result
  rw [ended] at result
  exact ⟨read, negated, congrArg Prod.fst ended, result.eq_ok⟩

end Execution

end DirectiveRunner
