import DirectiveRunner.Expr.Fault
import DirectiveRunner.Expr.Tree
/-!
# Operators

What the operators of expressions do to values. Integer results are computed exactly and must fit in
64 bits; there is no wrap-around.
-/

namespace DirectiveRunner.Expr

/-- The integer as a value, if it fits in 64 bits. -/
def fitting (i : Int) (overflow : String) : Except EvalError Value :=
  if -Int.pow 2 63 ≤ i ∧ i < Int.pow 2 63 then .ok (.int (Int64.ofInt i)) else .error (.wrongType overflow)

/-- What an operator says when a result does not fit. -/
def overflowText : String := "integer overflow"

/-- The truth value that an operator needs. -/
def needBool (op : String) (v : Value) : Except EvalError Bool :=
  match v.asBool? with
  | some b => .ok b
  | none =>
    .error (.wrongType ("operator '" ++ op ++ "' expects a boolean, found a " ++ v.typeName))

def negated : Value → Except EvalError Value
  | .int n => fitting (-n.toInt) "integer overflow in negation"
  | v => .error (.wrongType ("cannot negate a " ++ v.typeName))

/-- The element of a list or map; a map has `null` under keys it does not hold. -/
def elementOf : Value → Value → Except EvalError Value
  | .list items, .int i =>
    match (if i < 0 then none else items[i.toInt.toNat]?) with
    | some v => .ok v
    | none =>
      .error (.wrongType ("index " ++ showInt i.toInt ++ " out of bounds for a list of " ++
        showNat items.length))
  | .map entries, .str key => .ok ((Dict.lookup key entries).getD .null)
  | target, key =>
    .error (.wrongType ("cannot index a " ++ target.typeName ++ " with a " ++ key.typeName))

/-- The member of a map; a map has `null` under names it does not hold. -/
def memberOf (name : String) : Value → Except EvalError Value
  | .map entries => .ok ((Dict.lookup name entries).getD .null)
  | v => .error (.wrongType ("cannot read member '" ++ name ++ "' of a " ++ v.typeName))

/-- Whether an ordering operator holds, given which of the operands is smaller. -/
def ordered (op : BinaryOp) (less greater : Bool) : Bool :=
  match op with
  | .lt => less
  | .le => !greater
  | .gt => greater
  | .ge => !less
  | _ => false

def BinaryOp.isOrdering : BinaryOp → Bool
  | .lt | .le | .gt | .ge => true
  | _ => false

/-- The fault of an operator on values it is not made for. -/
def unsupported (op : BinaryOp) (l r : Value) : Except EvalError Value :=
  .error (.wrongType ("unsupported operands for " ++ op.name ++ ": " ++ l.typeName ++ " and " ++
    r.typeName))

def integerOp (op : BinaryOp) (l r : Int64) : Except EvalError Value :=
  match op with
  | .add => fitting (l.toInt + r.toInt) overflowText
  | .sub => fitting (l.toInt - r.toInt) overflowText
  | .mul => fitting (l.toInt * r.toInt) overflowText
  | .div =>
    if r = 0 then .error (.wrongType "division by zero")
    else fitting (l.toInt.tdiv r.toInt) overflowText
  | .rem =>
    if r = 0 then .error (.wrongType "division by zero")
    else if l.toInt = -Int.pow 2 63 ∧ r = -1 then .error (.wrongType overflowText)
    else fitting (l.toInt.tmod r.toInt) overflowText
  | .lt | .le | .gt | .ge => .ok (.bool (ordered op (l < r) (r < l)))
  | .or | .and | .eq | .ne => unsupported op (.int l) (.int r)

/-- The sum of two values that are not both integers. -/
def concatenation : Value → Value → Except EvalError Value
  | .list l, .list r => .ok (.list (l ++ r))
  | .list l, r => .ok (.list (l ++ [r]))
  | .str l, r => .ok (.str (l ++ r.text))
  | l, .str r => .ok (.str (l.text ++ r))
  | l, r => unsupported .add l r

def applyBinary (op : BinaryOp) (l r : Value) : Except EvalError Value :=
  match op, l, r with
  | .eq, l, r => .ok (.bool (l = r))
  | .ne, l, r => .ok (.bool (l ≠ r))
  | op, .int l, .int r => integerOp op l r
  | .add, l, r => concatenation l r
  | op, .str l, .str r =>
    if op.isOrdering then .ok (.bool (ordered op (l < r) (r < l))) else unsupported op (.str l) (.str r)
  | op, l, r => unsupported op l r

end DirectiveRunner.Expr
