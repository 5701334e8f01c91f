import DirectiveRunner.Expr.Fault
import DirectiveRunner.Text.Blank
import DirectiveRunner.Text.Digits
import DirectiveRunner.Text.Letter
import DirectiveRunner.Text.Quoted
import DirectiveRunner.Text.Utf8
/-!
# Tokens of expressions

The text of an expression is cut into numbers, quoted texts, names and operators; blanks only
separate. A token is as long as possible, so `<=` is one operator. `tokenize` reports the first
place, counted in bytes, that starts no token.
-/

namespace DirectiveRunner.Expr

/-- The operators and marks of expressions. -/
inductive Mark where
  | equal | unequal | atMost | atLeast | both | either
  | openParen | closeParen | openBracket | closeBracket
  | comma | dot | question | colon | bang | less | greater
  | plus | minus | times | slash | percent | semicolon
deriving DecidableEq, Repr

namespace Mark

def text : Mark → String
  | equal => "==" | unequal => "!=" | atMost => "<=" | atLeast => ">=" | both => "&&"
  | either => "||" | openParen => "(" | closeParen => ")" | openBracket => "["
  | closeBracket => "]" | comma => "," | dot => "." | question => "?" | colon => ":"
  | bang => "!" | less => "<" | greater => ">" | plus => "+" | minus => "-" | times => "*"
  | slash => "/" | percent => "%" | semicolon => ";"

/-- All marks, the longer ones first. -/
def all : List Mark :=
  [equal, unequal, atMost, atLeast, both, either, openParen, closeParen, openBracket, closeBracket,
    comma, dot, question, colon, bang, less, greater, plus, minus, times, slash, percent, semicolon]

def read? (cs : List Char) : Option Mark := all.find? (·.text.toList.isPrefixOf cs)

end Mark

inductive Token where
  | int (n : Int64)
  | str (s : String)
  | ident (name : String)
  | mark (m : Mark)
deriving DecidableEq, Repr

namespace Token

def shown : Token → String
  | int n => "Int(" ++ showInt n.toInt ++ ")"
  | str s => "Str(" ++ .ofList (Text.quoted s.toList) ++ ")"
  | ident n => "Ident(" ++ .ofList (Text.quoted n.toList) ++ ")"
  | mark m => "Op(" ++ .ofList (Text.quoted m.text.toList) ++ ")"

end Token

/-- Whether a character is one of the digits `0` to `9`. -/
def isDigit (c : Char) : Bool := Text.isDigitOf 10 c

def startsName (c : Char) : Bool := Text.isAlphabetic c || c = '_' || c = '$'

def continuesName (c : Char) : Bool := Text.isAlphanumeric c || c = '_' || c = '$'

/-- The character that stands for itself after a backslash, `n` and `t` apart. -/
def escaped (c : Char) : Char :=
  if c = 'n' then '\n' else if c = 't' then '\t' else c

/-- The rest of a quoted text: what it holds, and how many characters it takes with its closing
quote. -/
def readQuoted? (quote : Char) : List Char → Option (List Char × Nat)
  | [] => none
  | c :: r =>
    if c = quote then some ([], 1)
    else if c = '\\' then
      match r with
      | [] => none
      | d :: r => (readQuoted? quote r).map fun (s, n) => (escaped d :: s, n + 2)
    else (readQuoted? quote r).map fun (s, n) => (c :: s, n + 1)

/-- The integer that a run of digits stands for, if it fits in 64 bits. -/
def readInt (ds : List Char) : Except EvalError Int64 :=
  match Text.ofDigits? 10 ds with
  | some n =>
    if n < Nat.pow 2 63 then .ok (Int64.ofNat n)
    else
      .error (.malformed ("invalid integer '" ++ .ofList ds ++
        "': number too large to fit in target type"))
  | none => .error (.malformed ("invalid integer '" ++ .ofList ds ++ "': invalid digit found in string"))

/-- The token that starts with `c`, and how many of the characters after `c` belong to it; `offset`
is the place of `c` in bytes. -/
def readToken (offset : Nat) (c : Char) (r : List Char) : Except EvalError (Token × Nat) :=
  if c = '\'' || c = '"' then
    match readQuoted? c r with
    | some (s, n) => .ok (.str (.ofList s), n)
    | none =>
      .error (.malformed ("unterminated string literal starting at offset " ++ showNat offset))
  else if isDigit c then
    let ds := r.takeWhile isDigit
    (readInt (c :: ds)).map fun n => (.int n, ds.length)
  else if startsName c then
    let cs := r.takeWhile continuesName
    .ok (.ident (.ofList (c :: cs)), cs.length)
  else
    match Mark.read? (c :: r) with
    | some m => .ok (.mark m, m.text.length - 1)
    | none =>
      .error (.malformed ("unexpected character '" ++ .singleton c ++ "' at offset " ++
        showNat offset))

/-- The tokens of a text of which the first `skip` characters belong to a token read before, and the
first character stands at `offset`. -/
def tokensFrom (offset skip : Nat) : List Char → Except EvalError (List Token)
  | [] => .ok []
  | c :: r =>
    match skip with
    | n + 1 => tokensFrom (offset + c.utf8Size) n r
    | 0 =>
      if Text.isBlank c then tokensFrom (offset + c.utf8Size) 0 r
      else
        match readToken offset c r with
        | .error e => .error e
        | .ok (t, n) => (tokensFrom (offset + c.utf8Size) n r).map (t :: ·)

def tokenize (source : List Char) : Except EvalError (List Token) := tokensFrom 0 0 source

/-- The characters of a token read before are passed over. -/
theorem tokensFrom_skip (offset n : Nat) (cs : List Char) :
    tokensFrom offset n cs =
      tokensFrom (offset + Text.byteLength (cs.take n)) 0 (cs.drop n) := by
  induction n generalizing offset cs with
  | zero => simp [Text.byteLength]
  | succ n ih =>
    cases cs with
    | nil => simp [tokensFrom]
    | cons c r =>
      simp only [tokensFrom, List.drop_succ_cons, List.take_succ_cons]
      rw [ih]
      simp [Text.byteLength, Nat.add_assoc]

end DirectiveRunner.Expr
