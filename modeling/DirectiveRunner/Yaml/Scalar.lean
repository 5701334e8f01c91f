import DirectiveRunner.Text.Digits
import DirectiveRunner.Yaml.Place
/-!
# Scalars of YAML

Reading the three kinds of scalars: plain ones, quoted ones, and blocks of lines. A line end inside a
plain or quoted scalar is folded: a single one becomes a space, and of several the first is dropped.
-/

namespace DirectiveRunner.Yaml

/-- What was passed over between two parts of a scalar. -/
structure Space where
  /-- The gaps, as long as no line has ended. -/
  gaps : List Char := []
  /-- The first line end, if a line has ended; it is empty if it was escaped. -/
  first : Option (List Char) := none
  further : List Char := []
deriving DecidableEq, Repr

namespace Space

/-- What the space between two parts counts as. -/
def folded (s : Space) : List Char :=
  match s.first with
  | none => s.gaps
  | some first =>
    if first = ['\n'] then if s.further.isEmpty then [' '] else s.further
    else first ++ s.further

def addBreak (s : Space) (b : List Char) : Space :=
  match s.first with
  | none => { s with gaps := [], first := some b }
  | some _ => { s with further := s.further ++ b }

def addGap (s : Space) (c : Char) : Space :=
  if s.first.isNone then { s with gaps := s.gaps ++ [c] } else s

end Space

/-- Passes over gaps and line ends. In a plain scalar that is indented by `indent` no tab may stand
where the indentation belongs. -/
def readSpace? (indent : Option Nat) : Nat → Space → Place → Option (Space × Place)
  | 0, _, _ => none
  | n + 1, s, p =>
    match p.next? with
    | none => some (s, p)
    | some c =>
      if isGap c then
        if s.first.isSome && c = '\t' && indent.any (p.column < ·) then none
        else readSpace? indent n (s.addGap c) p.skip
      else if isBreak c then readSpace? indent n (s.addBreak p.readBreak.1) p.readBreak.2
      else some (s, p)

/-! ## Plain scalars -/

/-- Whether a plain scalar ends before a character, and none if the character may not stand here. -/
def endsPlain? (flow : Bool) (p : Place) : Option Bool :=
  match p.next? with
  | none => some true
  | some c =>
    if isGap c || isBreak c then some true
    else if flow && c = ':' && (p.ahead? 1).any (· ∈ [',', '?', '[', ']', '\x7b', '\x7d']) then none
    else if c = ':' && isEdge (p.ahead? 1) then some true
    else some (flow && c ∈ [',', '[', ']', '\x7b', '\x7d'])

/-- Reads the characters of a plain scalar up to the next gap or its end. -/
def readPlainPart? (flow : Bool) : Nat → List Char → Place → Option (List Char × Place)
  | 0, _, _ => none
  | n + 1, part, p => do
    if ← endsPlain? flow p then return (part.reverse, p)
    match p.next? with
    | some c => readPlainPart? flow n (c :: part) p.skip
    | none => return (part.reverse, p)

/-- Reads a plain scalar: its text, the space after its last part, and the place after that space. -/
def readPlain? (flow : Bool) (indent : Nat) :
    Nat → List Char → Space → Place → Option (List Char × Space × Place)
  | 0, _, _, _ => none
  | n + 1, text, space, p =>
    if p.atDocumentMark || p.next? = some '#' then some (text, space, p)
    else do
      let (part, p) ← readPlainPart? flow (p.rest.length + 1) [] p
      let (text, space) := if part.isEmpty then (text, space) else (text ++ space.folded ++ part, {})
      if (p.next?).any fun c => isGap c || isBreak c then
        let (space, p) ← readSpace? (some indent) (p.rest.length + 1) space p
        if !flow && p.column < indent then return (text, space, p)
        readPlain? flow indent n text space p
      else return (text, space, p)

/-! ## Quoted scalars -/

/-- The character of an escape that is a single character. -/
def simpleEscape? (c : Char) : Option Char :=
  [('0', '\x00'), ('a', '\x07'), ('b', '\x08'), ('t', '\t'), ('\t', '\t'), ('n', '\n'),
    ('v', '\x0B'), ('f', '\x0C'), ('r', '\r'), ('e', '\x1B'), (' ', ' '), ('"', '"'), ('/', '/'),
    ('\\', '\\'), ('N', '\u0085'), ('_', '\u00A0'), ('L', '\u2028'), ('P', '\u2029')].lookup c

/-- How many hexadecimal digits an escape has. -/
def escapeWidth? (c : Char) : Option Nat :=
  if c = 'x' then some 2 else if c = 'u' then some 4 else if c = 'U' then some 8 else none

def readYamlEscape? (p : Place) : Option (Char × Place) := do
  let c ← p.next?
  match simpleEscape? c with
  | some d => return (d, p.skip)
  | none =>
    let width ← escapeWidth? c
    let ds := (p.skip.rest).take width
    if ds.length < width then none
    else
      let n ← Text.ofDigits? 16 ds
      if n.isValidChar then return (Char.ofNat n, p.skip (width + 1)) else none

/-- Reads the characters of a quoted scalar up to the next gap, line end or closing quote. An escaped
line end closes the part, and the space after it counts as begun. -/
def readQuotedPart? (single : Bool) :
    Nat → List Char → Place → Option (List Char × Space × Place)
  | 0, _, _ => none
  | n + 1, part, p =>
    match p.rest with
    | [] => some (part.reverse, {}, p)
    | c :: r =>
      if isGap c || isBreak c then some (part.reverse, {}, p)
      else if single && c = '\'' && r.head? = some '\'' then
        readQuotedPart? single n ('\'' :: part) (p.skip 2)
      else if c = (if single then '\'' else '"') then some (part.reverse, {}, p)
      else if !single && c = '\\' then
        if r.head?.any isBreak then
          some (part.reverse, { first := some [] }, p.skip.readBreak.2)
        else do
          let (d, p) ← readYamlEscape? p.skip
          readQuotedPart? single n (d :: part) p
      else readQuotedPart? single n (c :: part) p.skip

/-- Reads a quoted scalar after its opening quote. -/
def readYamlQuoted? (single : Bool) : Nat → List Char → Place → Option (List Char × Place)
  | 0, _, _ => none
  | n + 1, text, p =>
    if p.atDocumentMark || p.rest.isEmpty then none
    else do
      let (part, space, p) ← readQuotedPart? single (p.rest.length + 1) [] p
      let text := text ++ part
      if space.first.isNone && p.next? = some (if single then '\'' else '"') then
        return (text, p.skip)
      let (space, p) ← readSpace? none (p.rest.length + 1) space p
      readYamlQuoted? single n (text ++ space.folded) p

/-! ## Block scalars -/

/-- What becomes of the line ends at the end of a block scalar. -/
inductive Chomping where
  | strip | clip | keep
deriving DecidableEq, Repr

/-- The indicators at the start of a block scalar: chomping and indentation, in either order. -/
def readIndicators? (p : Place) : Option (Chomping × Option Nat × Place) :=
  let chomping? (c : Char) : Option Chomping :=
    if c = '+' then some .keep else if c = '-' then some .strip else none
  let digit? (c : Char) : Option Nat := if c.isDigit then some (c.toNat - 48) else none
  match p.next? with
  | none => some (.clip, none, p)
  | some c =>
    match chomping? c, digit? c with
    | some ch, _ =>
      match p.skip.next?.bind digit? with
      | some 0 => none
      | some d => some (ch, some d, p.skip 2)
      | none => some (ch, none, p.skip)
    | none, some 0 => none
    | none, some d =>
      match p.skip.next?.bind chomping? with
      | some ch => some (ch, some d, p.skip 2)
      | none => some (.clip, some d, p.skip)
    | none, none => some (.clip, none, p)

/-- Passes over the indentation of a line and over empty lines, whose ends are collected. As long as
the indentation is not known, `widest` holds the widest one seen. -/
def readBlockBreaks? (indent : Option Nat) :
    Nat → Nat → List Char → Place → Option (Nat × List Char × Place)
  | 0, _, _, _ => none
  | n + 1, widest, breaks, p =>
    let spaces := (p.rest.takeWhile (· = ' ')).length
    let p := p.skip (match indent with
      | none => spaces
      | some i => min spaces (i - p.column))
    let widest := max widest p.column
    if indent.all (p.column < ·) && p.next? = some '\t' then none
    else if p.next?.any isBreak then
      readBlockBreaks? indent n widest (breaks ++ p.readBreak.1) p.readBreak.2
    else some (widest, breaks, p)

/-- Reads the lines of a block scalar: its text without the last line end, that line end, the line ends
of the empty lines after it, and the place after them. -/
def readBlockLines? (literal : Bool) (indent : Nat) :
    Nat → List Char → List Char → List Char → Bool → Place →
      Option (List Char × List Char × List Char × Place)
  | 0, _, _, _, _, _ => none
  | n + 1, text, last, breaks, gapBefore, p =>
    if p.column = indent && !p.rest.isEmpty then do
      let gap := p.next?.any isGap
      let between :=
        if !literal && last = ['\n'] && !gapBefore && !gap then
          (if breaks.isEmpty then [' '] else []) ++ breaks
        else last ++ breaks
      let (line, p) := p.takeWhile fun c => !isBreak c
      let (last, p) := p.readBreak
      let (_, breaks, p) ← readBlockBreaks? (some indent) (p.rest.length + 1) 0 [] p
      readBlockLines? literal indent n (text ++ between ++ line) last breaks gap p
    else some (text, last, breaks, p)

/-- Reads a block scalar after its first character, inside a block that is indented by `outer`. -/
def readBlock? (literal : Bool) (outer : Int) (p : Place) : Option (List Char × Place) := do
  let (chomping, increment, p) ← readIndicators? p
  let p := p.skipGaps.skipComment
  if !isLineEnd p.next? then none
  else
    let p := p.readBreak.2
    let given := increment.map fun i => (max outer 0).toNat + i
    let (widest, breaks, p) ← readBlockBreaks? given (p.rest.length + 1) 0 [] p
    let indent := given.getD (max widest (max (outer + 1) 1).toNat)
    let (text, last, breaks, p) ←
      readBlockLines? literal indent (p.rest.length + 1) [] [] breaks false p
    let text :=
      match chomping with
      | .strip => text
      | .clip => text ++ last
      | .keep => text ++ last ++ breaks
    return (text, p)

end DirectiveRunner.Yaml
