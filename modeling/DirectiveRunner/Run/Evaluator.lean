import DirectiveRunner.Expr.Eval
/-!
# Evaluators

How a directive is executed is said for any way to render templates and to evaluate expressions. The one
that is used is the instance `Evaluator.standard`; statements about which scopes a directive evaluates
its expressions in put others in its place. An exit code is judged in a scope that holds nothing of the
directive, so `Command.judge` always uses the standard one.
-/

namespace DirectiveRunner

/-- A way to render templates and to evaluate expressions in a scope. -/
class Evaluator where
  render : String → Bindings → Action EvalError Value
  evaluate : String → Bindings → Action EvalError Value

namespace Evaluator

/-- The way that is used. -/
instance standard : Evaluator := ⟨Template.render, DirectiveRunner.evaluate⟩

@[simp] theorem render_standard (text : String) (scope : Bindings) :
    render text scope = Template.render text scope := rfl

@[simp] theorem evaluate_standard (expression : String) (scope : Bindings) :
    evaluate expression scope = DirectiveRunner.evaluate expression scope := rfl

end Evaluator

end DirectiveRunner
