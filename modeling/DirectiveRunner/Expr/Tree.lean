import DirectiveRunner.Value
/-!
# Expressions

The tree of an expression. A call in the form `x.f(y)` is the call of `f` with `x` and `y`, and
statements one after the other make a `sequence`, whose value is that of the last one.
-/

namespace DirectiveRunner

namespace Expr

/-- The operators with two operands, loosest first. -/
inductive BinaryOp where
  | or | and | eq | ne | lt | le | gt | ge | add | sub | mul | div | rem
deriving DecidableEq, Repr

def BinaryOp.name : BinaryOp → String
  | or => "Or" | and => "And" | eq => "Eq" | ne => "Ne" | lt => "Lt" | le => "Le" | gt => "Gt"
  | ge => "Ge" | add => "Add" | sub => "Sub" | mul => "Mul" | div => "Div" | rem => "Rem"

end Expr

inductive Expr where
  | literal (v : Value)
  | list (items : List Expr)
  | ident (name : String)
  /-- A member of a map. -/
  | member (target : Expr) (name : String)
  | index (target : Expr) (key : Expr)
  /-- A call of a helper. -/
  | call (name : String) (arguments : List Expr)
  | not (operand : Expr)
  | negate (operand : Expr)
  | binary (op : Expr.BinaryOp) (left right : Expr)
  | choice (condition onTrue onFalse : Expr)
  | sequence (statements : List Expr)
deriving Repr, Inhabited

end DirectiveRunner
