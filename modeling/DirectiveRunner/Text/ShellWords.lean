import DirectiveRunner.Text.Pieces
/-!
# Words of a command line

Words are written so that a shell reads them back as they are (`quoteWord`), and a line is cut into
words the way a shell cuts it (`splitWords?`): blanks separate words, `'` and `"` quote, a backslash
takes the next character literally, and `#` at the start of a word begins a comment. A line that ends
inside quotes or right after a backslash has no words.
-/

namespace DirectiveRunner.Text

/-- Whether a character stands for itself outside quotes. -/
def isPlainInWord (c : Char) : Bool :=
  let n := c.toNat
  (48 ≤ n && n ≤ 57) || (65 ≤ n && n ≤ 90) || (97 ≤ n && n ≤ 122) || c ∈ "+-./:@]_".toList

/-- The ways of quoting that suit a part of a word. -/
structure QuoteStyles where
  bare : Bool := true
  single : Bool := true
  double : Bool := true
deriving DecidableEq, Repr

/-- The ways that also suit a character. -/
def QuoteStyles.narrow (s : QuoteStyles) (c : Char) : QuoteStyles where
  bare := s.bare && isPlainInWord c
  single := s.single && !(c ∈ "'^\\".toList)
  double := s.double && !(c ∈ "$!^".toList || c = Char.ofNat 96)

def QuoteStyles.any (s : QuoteStyles) : Bool := s.bare || s.single || s.double

/-- Writes a part of a word in the first way that suits it. -/
def QuoteStyles.write (s : QuoteStyles) (part : List Char) : List Char :=
  if s.bare then part
  else if s.single then ['\''] ++ part ++ ['\'']
  else
    ['"'] ++ (part.flatMap fun c =>
      if c ∈ "$\"\\".toList || c = Char.ofNat 96 then ['\\', c] else [c]) ++ ['"']

/-- The ways of quoting that suit a part of a word whose first character is `c`; a `^` at the start
is always put in single quotes. -/
def QuoteStyles.start (c : Char) : QuoteStyles :=
  if c = '^' then { bare := false, double := false } else QuoteStyles.narrow {} c

/-- Writes a word part by part, where `part` holds, in reverse, the characters that the ways in
`styles` suit. -/
def quoteParts (styles : QuoteStyles) (part : List Char) : List Char → List Char
  | [] => styles.write part.reverse
  | c :: r =>
    if (styles.narrow c).any then quoteParts (styles.narrow c) (c :: part) r
    else styles.write part.reverse ++ quoteParts (.start c) [c] r

/-- A word as a shell reads it back. -/
def quoteWord : List Char → List Char
  | [] => ['\'', '\'']
  | c :: r => quoteParts (.start c) [c] r

/-- Words as a shell reads them back, unless one of them holds a NUL character. -/
def quoteWords? (words : List (List Char)) : Option (List Char) :=
  if words.any ('\x00' ∈ ·) then none else some (joinWith [' '] (words.map quoteWord))

/-- Where the reading of a line stands; the characters of the current word are kept in reverse. -/
inductive WordState where
  | between
  | comment
  | word (acc : List Char)
  /-- After a backslash. -/
  | escaped (acc : List Char)
  | single (acc : List Char)
  | double (acc : List Char)
  | doubleEscaped (acc : List Char)
deriving DecidableEq, Repr

def separatesWords (c : Char) : Bool := c = ' ' || c = '\t' || c = '\n'

/-- The state after a character of a word outside quotes. -/
def WordState.inWord (acc : List Char) (c : Char) : WordState :=
  if c = '"' then .double acc
  else if c = '\'' then .single acc
  else if c = '\\' then .escaped acc
  else .word (c :: acc)

/-- The words of the rest of a line. -/
def scanWords : WordState → List Char → Option (List (List Char))
  | .between, [] | .comment, [] => some []
  | .word acc, [] => some [acc.reverse]
  | .escaped _, [] | .single _, [] | .double _, [] | .doubleEscaped _, [] => none
  | .between, c :: r =>
    if separatesWords c then scanWords .between r
    else if c = '#' then scanWords .comment r
    else scanWords (.inWord [] c) r
  | .comment, c :: r => scanWords (if c = '\n' then .between else .comment) r
  | .word acc, c :: r =>
    if separatesWords c then (scanWords .between r).map (acc.reverse :: ·)
    else scanWords (.inWord acc c) r
  | .escaped acc, c :: r => scanWords (.word (if c = '\n' then acc else c :: acc)) r
  | .single acc, c :: r => if c = '\'' then scanWords (.word acc) r else scanWords (.single (c :: acc)) r
  | .double acc, c :: r =>
    if c = '"' then scanWords (.word acc) r
    else if c = '\\' then scanWords (.doubleEscaped acc) r
    else scanWords (.double (c :: acc)) r
  | .doubleEscaped acc, c :: r =>
    if c = '\n' then scanWords (.double acc) r
    else if c ∈ "$\"\\".toList || c = Char.ofNat 96 then scanWords (.double (c :: acc)) r
    else scanWords (.double (c :: '\\' :: acc)) r

/-- The words of a line, unless it ends inside quotes or right after a backslash. -/
def splitWords? (line : List Char) : Option (List (List Char)) := scanWords .between line

end DirectiveRunner.Text
