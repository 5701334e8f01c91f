import DirectiveRunner.Text.Utf8
/-!
# Places in a YAML text

A place holds the text that is still to be read, with its distance from the start, its line and its
column. Line feeds, carriage returns and the line separators of Unicode end lines, and a carriage
return with a line feed ends one line.
-/

namespace DirectiveRunner.Yaml

/-- A place in a text. -/
structure Place where
  rest : List Char
  /-- How many characters come before. -/
  index : Nat := 0
  /-- How many lines end before. -/
  line : Nat := 0
  /-- How many characters of the line come before. -/
  column : Nat := 0
deriving DecidableEq, Repr

/-- Whether a character is a space or tab. -/
def isGap (c : Char) : Bool := c = ' ' || c = '\t'

def isBreak (c : Char) : Bool :=
  c = '\n' || c = '\r' || c = '\u0085' || c = '\u2028' || c = '\u2029'

/-- Whether there is a gap or the end of a line or text. -/
def isEdge : Option Char → Bool
  | none => true
  | some c => isGap c || isBreak c

def isLineEnd : Option Char → Bool
  | none => true
  | some c => isBreak c

def isNameChar (c : Char) : Bool := c.isAlphanum || c = '-' || c = '_'

/-- The characters a text may hold. -/
def isAllowed (c : Char) : Bool :=
  let n := c.toNat
  n = 0x09 || n = 0x0A || n = 0x0D || (0x20 ≤ n && n ≤ 0x7E) || n = 0x85 ||
    (0xA0 ≤ n && n ≤ 0xD7FF) || (0xE000 ≤ n && n ≤ 0xFFFD) || 0x10000 ≤ n

namespace Place

def next? (p : Place) : Option Char := p.rest.head?

/-- The character `n` characters further on. -/
def ahead? (p : Place) (n : Nat) : Option Char := p.rest[n]?

/-- The place after `n` characters of a line. -/
def skip (p : Place) (n : Nat := 1) : Place :=
  { p with rest := p.rest.drop n, index := p.index + n, column := p.column + n }

/-- The place after the end of a line, with the line end as it counts in a text. -/
def readBreak (p : Place) : List Char × Place :=
  match p.rest with
  | '\r' :: '\n' :: r => (['\n'], ⟨r, p.index + 2, p.line + 1, 0⟩)
  | c :: r =>
    if c = '\u2028' || c = '\u2029' then ([c], ⟨r, p.index + 1, p.line + 1, 0⟩)
    else if isBreak c then (['\n'], ⟨r, p.index + 1, p.line + 1, 0⟩)
    else ([], p)
  | [] => ([], p)

/-- The place after the characters that satisfy a condition, with these characters; they must not end
lines. -/
def takeWhile (p : Place) (f : Char → Bool) : List Char × Place :=
  let cs := p.rest.takeWhile f
  (cs, p.skip cs.length)

def skipGaps (p : Place) : Place := (p.takeWhile isGap).2

/-- The place at the end of a comment that comes next. -/
def skipComment (p : Place) : Place :=
  if p.next? = some '#' then (p.takeWhile fun c => !isBreak c).2 else p

/-- Whether a line with a document mark starts here. -/
def atDocumentMark (p : Place) : Bool :=
  p.column = 0 && (p.rest.take 3 = ['-', '-', '-'] || p.rest.take 3 = ['.', '.', '.']) &&
    isEdge (p.ahead? 3)

end Place

end DirectiveRunner.Yaml
