import DirectiveRunner.Text.Blank
import DirectiveRunner.Text.Letter
import DirectiveRunner.Text.Pieces
/-!
# The form of a directive

A directive is written as an identifier, then possibly a colon with parameters in braces, then possibly
a keyword with an expression:

    identifier: { parameters } keyword expression

Blanks between the parts count for nothing. A text can be taken apart in more than one way; what counts
is the longest identifier, and then the longest parameters, that leave a proper rest (`readForm?`).
-/

namespace DirectiveRunner.Directive

/-- The parts of a directive as they are written. -/
structure Form where
  identifier : List Char
  /-- The parameters with their braces. -/
  parameters : Option (List Char) := none
  /-- The keyword and the expression. -/
  condition : Option (String × List Char) := none
deriving DecidableEq, Repr

def isIdentifierChar (c : Char) : Bool := Text.isWord c || c = '-'

def keywords : List String := ["if", "unless", "while", "until"]

/-- Reads an expression up to the end of the text; it has no line feeds and no blanks at its ends. -/
def readExpression? (cs : List Char) : Option (List Char) :=
  match cs with
  | [] => none
  | c :: _ =>
    let e := Text.trimEnd (Text.trimStart cs)
    if Text.isBlank c && !e.isEmpty && !('\n' ∈ e) then some e else none

/-- Reads a keyword and an expression that are all of a text. -/
def readCondition? (cs : List Char) : Option (String × List Char) :=
  keywords.findSome? fun keyword =>
    (Text.afterStart? keyword.toList cs).bind fun r => (readExpression? r).map (keyword, ·)

/-- Reads what comes after the identifier and the parameters, of which `before` is the last character:
nothing, or a condition that does not run on from a word. -/
def readEnd? (before : Option Char) (cs : List Char) : Option (Option (String × List Char)) :=
  let r := Text.trimStart cs
  -- after blanks it does not matter what stood before them
  let before := if r.length < cs.length then none else before
  let condition := if before.any Text.isWord then none else readCondition? r
  match condition with
  | some c => some (some c)
  | none => if r.isEmpty then some none else none

/-- The ways to cut a text right after a closing brace on its first line, the last brace first, where
`before` holds what comes before the text, in reverse. -/
def bracedParts (before : List Char) : List Char → List (List Char × List Char)
  | [] => []
  | c :: r =>
    if c = '\n' then []
    else
      bracedParts (c :: before) r ++
        if c = '\x7d' then [((c :: before).reverse, r)] else []

/-- Reads what comes after the identifier. -/
def readRest? (identifier cs : List Char) : Option Form :=
  let withParameters :=
    match Text.trimStart cs with
    | ':' :: r =>
      match Text.trimStart r with
      | '\x7b' :: r =>
        (bracedParts ['\x7b'] r).findSome? fun (parameters, rest) =>
          (readEnd? (some '\x7d') rest).map fun condition =>
            (⟨identifier, some parameters, condition⟩ : Form)
      | _ => none
    | _ => none
  -- if no cut after a brace leaves an end that can be read, there are no parameters
  match withParameters with
  | some f => some f
  | none => (readEnd? identifier.getLast? cs).map fun condition => ⟨identifier, none, condition⟩

/-- Tries identifiers of at most `n` characters, the longest first. -/
def readUpTo? (cs : List Char) : Nat → Option Form
  | 0 => none
  | n + 1 =>
    match readRest? (cs.take (n + 1)) (cs.drop (n + 1)) with
    | some f => some f
    | none => readUpTo? cs n

/-- The parts of a directive. -/
def readForm? (cs : List Char) : Option Form :=
  let cs := Text.trimStart cs
  readUpTo? cs (cs.takeWhile isIdentifierChar).length

end DirectiveRunner.Directive
