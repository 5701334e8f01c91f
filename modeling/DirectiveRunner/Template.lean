import DirectiveRunner.Expr.Fault
import DirectiveRunner.Text.Blank
import DirectiveRunner.Text.Pieces
/-!
# Templates

A template is text with blocks `@{ … }` that hold expressions. A block ends at the first closing
brace that has no opening partner in the block and stands outside quoted texts (`blockOf?`). Nothing
of a template is lost when it is cut into segments: written one after the other they give it back
(`unsplit_split`).
-/

namespace DirectiveRunner.Template

/-- A piece of a template. -/
inductive Segment where
  | literal (text : List Char)
  | block (code : List Char)
deriving DecidableEq, Repr

/-- The mark that opens a block. -/
def opening : List Char := ['@', Char.ofNat 123]

def Segment.written : Segment → List Char
  | literal t => t
  | block code => opening ++ code ++ [Char.ofNat 125]

/-- Where the search for the end of a block stands. -/
inductive BlockState where
  /-- Outside quoted texts, with this many braces open. -/
  | code (depth : Nat)
  /-- In a text in these quotes. -/
  | quoted (depth : Nat) (quote : Char)
  /-- After a backslash in a text in these quotes. -/
  | escaped (depth : Nat) (quote : Char)
deriving DecidableEq, Repr

/-- The state after a character, or none if the character closes the block. -/
def BlockState.next? : BlockState → Char → Option BlockState
  | code depth, c =>
    if c = '\'' || c = '"' then some (quoted depth c)
    else if c.toNat = 123 then some (code (depth + 1))
    else if c.toNat = 125 then
      match depth with
      | 0 => none
      | d + 1 => some (code d)
    else some (code depth)
  | quoted depth quote, c =>
    if c = '\\' then some (escaped depth quote)
    else if c = quote then some (code depth)
    else some (quoted depth quote)
  | escaped depth quote, _ => some (quoted depth quote)

/-- The length of the code before the brace that closes a block. -/
def closing? (state : BlockState) : List Char → Option Nat
  | [] => none
  | c :: r =>
    match state.next? c with
    | none => some 0
    | some s => (closing? s r).map (· + 1)

/-- Puts a character before segments, at the start of the first one if that is text. -/
def consLiteral (c : Char) : List Segment → List Segment
  | .literal t :: ss => .literal (c :: t) :: ss
  | ss => .literal [c] :: ss

/-- Cuts a template of which the first `skip` characters belong to a block read before; none if a
block has no end. -/
def splitFrom? (skip : Nat) : List Char → Option (List Segment)
  | [] => some []
  | c :: r =>
    match skip with
    | n + 1 => splitFrom? n r
    | 0 =>
      if opening.isPrefixOf (c :: r) then
        match closing? (.code 0) (r.drop 1) with
        | none => none
        -- besides the code, the two braces belong to the block
        | some n => (splitFrom? (n + 2) r).map (.block ((r.drop 1).take n) :: ·)
      else (splitFrom? 0 r).map (consLiteral c)

/-- The segments of a template, or none if a block has no end. -/
def split? (template : List Char) : Option (List Segment) := splitFrom? 0 template

def unsplit (segments : List Segment) : List Char := segments.flatMap Segment.written

def split (template : String) : Except EvalError (List Segment) :=
  match split? template.toList with
  | some segments => .ok segments
  | none =>
    .error (.malformed ("unclosed '@\x7b' block in template '" ++ trimmed template ++ "'"))

/-- The expression of a template that is a single block among blanks. -/
def soleBlock? (segments : List Segment) : Option (List Char) :=
  let blocks := segments.filterMap fun
    | .block code => some code
    | .literal _ => none
  let blankElsewhere := segments.all fun
    | .block _ => true
    | .literal t => Text.allBlank t
  match blocks, blankElsewhere with
  | [code], true => some code
  | _, _ => none

end DirectiveRunner.Template
