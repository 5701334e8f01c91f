import DirectiveRunner.Run.Error
import DirectiveRunner.Run.Evaluator
/-!
# Conditions of directives

Whether a directive is run at all is decided before its first round (`allows`), and whether it is run
again after each round (`repeats`). `if` and `unless` are only looked at before, `while` and `until`
only after.
-/

namespace DirectiveRunner.Condition

variable [Evaluator]

def holds (expression : String) (scope : Bindings) : Action RunError Bool := do
  Action.record (.checking expression)
  let v ← (Evaluator.evaluate expression scope).mapError .evaluation
  match v.asBool? with
  | some b => return b
  | none =>
    .fail (.evaluation (.wrongType ("the conditional '" ++ expression ++
      "' must yield a boolean, found a " ++ v.typeName)))

/-- Whether a directive is run. -/
def allows (scope : Bindings) : Conditional → Action RunError Bool
  | .onlyIf e => holds e scope
  | .unless e => do return !(← holds e scope)
  | .none | .while _ | .until _ => pure true

/-- Whether a directive is run again. -/
def repeats (scope : Bindings) : Conditional → Action RunError Bool
  | .while e => holds e scope
  | .until e => do return !(← holds e scope)
  | .none | .onlyIf _ | .unless _ => pure false

end DirectiveRunner.Condition
