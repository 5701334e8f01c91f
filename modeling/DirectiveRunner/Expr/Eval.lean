import DirectiveRunner.Expr.Operators
import DirectiveRunner.Expr.Parse
import DirectiveRunner.Helper.Registry
import DirectiveRunner.Template
/-!
# Evaluation

Expressions are evaluated from left to right in a scope of named values; `||`, `&&` and `?:` leave out
what they do not need. A template that is a single block among blanks has the value of that block, any
other template is a text.
-/

namespace DirectiveRunner

namespace Expr

mutual

def eval (scope : Bindings) : Expr → Action EvalError Value
  | .literal v => pure v
  | .list items => do return .list (← evalAll scope items)
  | .ident name =>
    match Dict.lookup name scope with
    | some v => pure v
    | none => .fail (.unknownIdentifier name)
  | .member target name => do .ofExcept (memberOf name (← eval scope target))
  | .index target key => do
    let target ← eval scope target
    let key ← eval scope key
    .ofExcept (elementOf target key)
  | .call name arguments => do Helper.call name (← evalAll scope arguments)
  | .not operand => do
    let b ← .ofExcept (needBool "!" (← eval scope operand))
    return .bool (!b)
  | .negate operand => do .ofExcept (negated (← eval scope operand))
  | .binary .or left right => do
    -- the operand on the right is not evaluated if the one on the left decides
    if ← .ofExcept (needBool "||" (← eval scope left)) then return .bool true
    return .bool (← .ofExcept (needBool "||" (← eval scope right)))
  | .binary .and left right => do
    if !(← .ofExcept (needBool "&&" (← eval scope left))) then return .bool false
    return .bool (← .ofExcept (needBool "&&" (← eval scope right)))
  | .binary op left right => do
    let left ← eval scope left
    let right ← eval scope right
    .ofExcept (applyBinary op left right)
  | .choice condition onTrue onFalse => do
    if ← .ofExcept (needBool "?:" (← eval scope condition)) then eval scope onTrue
    else eval scope onFalse
  | .sequence statements => evalLast scope .null statements
termination_by structural e => e

def evalAll (scope : Bindings) : List Expr → Action EvalError (List Value)
  | [] => pure []
  | e :: es => do
    let v ← eval scope e
    let vs ← evalAll scope es
    return v :: vs
termination_by structural es => es

/-- The value of the last of some expressions, or `last` if there are none. -/
def evalLast (scope : Bindings) (last : Value) : List Expr → Action EvalError Value
  | [] => pure last
  | e :: es => do evalLast scope (← eval scope e) es
termination_by structural es => es

end

end Expr

/-- The value of an expression given as text. -/
def evaluate (expression : String) (scope : Bindings) : Action EvalError Value := do
  let e ← .ofExcept (Expr.parse expression)
  e.eval scope

/-- A text has the value of the expression that is read from it. -/
theorem evaluate_of_parse {source : String} {e : Expr} (h : Expr.parse source = .ok e)
    (scope : Bindings) : evaluate source scope = e.eval scope := by
  rw [evaluate, h]
  rfl

namespace Template

/-- The text of some segments with the values of their blocks. -/
def renderSegments (scope : Bindings) : List Segment → Action EvalError String
  | [] => pure ""
  | .literal t :: ss => do return .ofList t ++ (← renderSegments scope ss)
  | .block code :: ss => do
    let v ← evaluate (.ofList code) scope
    return v.text ++ (← renderSegments scope ss)

def render (template : String) (scope : Bindings) : Action EvalError Value := do
  let segments ← .ofExcept (split template)
  match soleBlock? segments with
  | some code => evaluate (.ofList code) scope
  | none => return .str (← renderSegments scope segments)

end Template

end DirectiveRunner
