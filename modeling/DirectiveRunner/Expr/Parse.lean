import DirectiveRunner.Expr.Token
import DirectiveRunner.Expr.Tree
/-!
# Reading expressions

A recursive descent over the tokens, loosest operators first:

    program    := ["return"] ternary (";" ["return"] ternary)* [";"]
    ternary    := or ["?" ternary ":" ternary]
    or         := and ("||" and)*
    and        := equality ("&&" equality)*
    equality   := comparison (("==" | "!=") comparison)*
    comparison := additive (("<" | "<=" | ">" | ">=") additive)*
    additive   := term (("+" | "-") term)*
    term       := unary (("*" | "/" | "%") unary)*
    unary      := ("!" | "-") unary | suffixed
    suffixed   := primary ("." ident ["(" args ")"] | "[" ternary "]")*
    primary    := literal | "[" args "]" | ident ["(" args ")"] | "(" ternary ")"

Each function gives what it read with the tokens after it, and takes the number of calls it may still
nest. Every token is reached through at most `callsPerToken` nested calls, so `parseTokens` grants that
many for each token and the bound is never met.
-/

namespace DirectiveRunner.Parse

open DirectiveRunner.Expr (Token Mark BinaryOp tokenize)

/-- The operators of one level, with the marks they are written with. -/
abbrev Level := List (Mark × BinaryOp)

/-- The operator levels, loosest first. -/
def levels : List Level :=
  [[(.either, .or)],
    [(.both, .and)],
    [(.equal, .eq), (.unequal, .ne)],
    [(.atMost, .le), (.atLeast, .ge), (.less, .lt), (.greater, .gt)],
    [(.plus, .add), (.minus, .sub)],
    [(.times, .mul), (.slash, .div), (.percent, .rem)]]

/-- The operator of a level that a token stands for. -/
def operator? (level : Level) : Token → Option BinaryOp
  | .mark m => level.lookup m
  | _ => none

/-- The value of a name that stands for a literal. -/
def keyword? (name : String) : Option Value :=
  if name = "true" then some (.bool true)
  else if name = "false" then some (.bool false)
  else if name = "null" || name = "nil" then some .null
  else none

/-- The tokens after a mark that has to come next. -/
def expect (m : Mark) : List Token → Except EvalError (List Token)
  | [] => .error (.malformed ("expected '" ++ m.text ++ "' but the expression ended"))
  | t :: ts =>
    if t = .mark m then .ok ts
    else .error (.malformed ("expected '" ++ m.text ++ "' but found " ++ t.shown))

/-- The fault of an expression that nests deeper than it has tokens; it does not occur. -/
def tooDeep : EvalError := .malformed "the expression is nested too deeply"

mutual

/-- Reads a choice or an operand of one. -/
def ternary : Nat → List Token → Except EvalError (Expr × List Token)
  | 0, _ => .error tooDeep
  | n + 1, ts => do
    let (condition, ts) ← binary n levels ts
    match ts with
    | .mark .question :: ts =>
      let (onTrue, ts) ← ternary n ts
      let ts ← expect .colon ts
      let (onFalse, ts) ← ternary n ts
      return (.choice condition onTrue onFalse, ts)
    | ts => return (condition, ts)

/-- Reads operands joined by operators of the given levels. -/
def binary : Nat → List Level → List Token → Except EvalError (Expr × List Token)
  | 0, _, _ => .error tooDeep
  | n + 1, [], ts => unary n ts
  | n + 1, level :: tighter, ts => do
    let (left, ts) ← binary n tighter ts
    chain n level tighter left ts

/-- Reads further operands of one level after `left`, grouping to the left. -/
def chain : Nat → Level → List Level → Expr → List Token → Except EvalError (Expr × List Token)
  | 0, _, _, _, _ => .error tooDeep
  | _ + 1, _, _, left, [] => .ok (left, [])
  | n + 1, level, tighter, left, t :: ts =>
    match operator? level t with
    | none => .ok (left, t :: ts)
    | some op => do
      let (right, ts) ← binary n tighter ts
      chain n level tighter (.binary op left right) ts

/-- Reads an operand with the signs before it. -/
def unary : Nat → List Token → Except EvalError (Expr × List Token)
  | 0, _ => .error tooDeep
  | n + 1, .mark .bang :: ts => do
    let (e, ts) ← unary n ts
    return (.not e, ts)
  | n + 1, .mark .minus :: ts => do
    let (e, ts) ← unary n ts
    return (.negate e, ts)
  | n + 1, ts => do
    let (e, ts) ← primary n ts
    suffixes n e ts

/-- Reads the members, calls and indexes after `e`. -/
def suffixes : Nat → Expr → List Token → Except EvalError (Expr × List Token)
  | 0, _, _ => .error tooDeep
  | n + 1, e, .mark .dot :: .ident name :: .mark .openParen :: ts => do
    let (arguments, ts) ← arguments n .closeParen ts
    suffixes n (.call name (e :: arguments)) ts
  | n + 1, e, .mark .dot :: .ident name :: ts => suffixes n (.member e name) ts
  | _ + 1, _, .mark .dot :: t :: _ =>
    .error (.malformed ("expected a member name after '.', found Some(" ++ t.shown ++ ")"))
  | _ + 1, _, [.mark .dot] => .error (.malformed "expected a member name after '.', found None")
  | n + 1, e, .mark .openBracket :: ts => do
    let (key, ts) ← ternary n ts
    let ts ← expect .closeBracket ts
    suffixes n (.index e key) ts
  | _ + 1, e, ts => .ok (e, ts)

/-- Reads a literal, list, name, call or an expression in parentheses. -/
def primary : Nat → List Token → Except EvalError (Expr × List Token)
  | 0, _ => .error tooDeep
  | _ + 1, [] => .error (.malformed "unexpected end of expression")
  | _ + 1, .int i :: ts => .ok (.literal (.int i), ts)
  | _ + 1, .str s :: ts => .ok (.literal (.str s), ts)
  | n + 1, .ident name :: ts =>
    -- the name of a value is never that of a helper
    match keyword? name with
    | some v => .ok (.literal v, ts)
    | none =>
      match ts with
      | .mark .openParen :: ts => do
        let (arguments, ts) ← arguments n .closeParen ts
        return (.call name arguments, ts)
      | ts => .ok (.ident name, ts)
  | n + 1, .mark .openParen :: ts => do
    let (e, ts) ← ternary n ts
    let ts ← expect .closeParen ts
    return (e, ts)
  | n + 1, .mark .openBracket :: ts => do
    let (items, ts) ← arguments n .closeBracket ts
    return (.list items, ts)
  | _ + 1, t :: _ => .error (.malformed ("unexpected " ++ t.shown))

/-- Reads expressions between commas up to and including `close`; there may be none. -/
def arguments : Nat → Mark → List Token → Except EvalError (List Expr × List Token)
  | 0, _, _ => .error tooDeep
  | n + 1, close, ts =>
    if ts.head? = some (.mark close) then .ok ([], ts.tail) else moreArguments n close ts

/-- Reads at least one expression, and further ones after commas, up to and including `close`. -/
def moreArguments : Nat → Mark → List Token → Except EvalError (List Expr × List Token)
  | 0, _, _ => .error tooDeep
  | n + 1, close, ts => do
    let (e, ts) ← ternary n ts
    if ts.head? = some (.mark close) then return ([e], ts.tail)
    let ts ← expect .comma ts
    let (es, ts) ← moreArguments n close ts
    return (e :: es, ts)

end

/-- Reads statements up to a place where no `;` follows, or nothing after one. -/
def statements : Nat → List Token → Except EvalError (List Expr × List Token)
  | 0, _ => .error tooDeep
  | n + 1, ts => do
    let ts := if ts.head? = some (.ident "return") then ts.tail else ts
    let (e, ts) ← ternary n ts
    match ts with
    | [.mark .semicolon] => return ([e], [])
    | .mark .semicolon :: ts =>
      let (es, ts) ← statements n ts
      return (e :: es, ts)
    | ts => return ([e], ts)

def ofStatements : List Expr → Expr
  | [e] => e
  | es => .sequence es

/-- How many nested calls lead from one token to the next. -/
def callsPerToken : Nat := 16

/-- Reads a whole program and gives the tokens left over. -/
def parseTokens (ts : List Token) : Except EvalError (Expr × List Token) := do
  let (es, rest) ← statements (callsPerToken * (ts.length + 1)) ts
  return (ofStatements es, rest)

end DirectiveRunner.Parse

namespace DirectiveRunner.Expr

def parse (source : String) : Except EvalError Expr := do
  let (e, rest) ← Parse.parseTokens (← tokenize source.toList)
  match rest with
  | [] => return e
  | t :: _ =>
    throw (.malformed ("unexpected " ++ t.shown ++ " at end of expression '" ++ trimmed source ++
      "'"))

end DirectiveRunner.Expr
