import DirectiveRunner.Regex.Match
import DirectiveRunner.Text.Digits
/-!
# Reading regular expressions

The notation of regular expressions: literals, `.`, classes in brackets with nested classes and set
operations, groups with names and flags, alternatives, repetitions with `*`, `+`, `?` and counts, and
anchors. Look-around and references to groups are refused, as is everything that is left open.

Reading goes from left to right through a state that holds the flags in force and the names of the
groups seen. Each function takes the number of calls it may still nest; every character is reached
through at most `callsPerChar` of them.

This is one engine among others (`Engine`): what holds whatever a pattern is compiled with is said for
any of them.
-/

namespace DirectiveRunner.Regex

/-- What the flags in force say. -/
structure Flags where
  /-- Letters stand for themselves in either case. -/
  anyCase : Bool := false
  /-- `^` and `$` also hold at the ends of lines. -/
  multiLine : Bool := false
  /-- `.` also stands for a line feed. -/
  dotAll : Bool := false
  /-- Repetitions are lazy unless marked. -/
  swapGreed : Bool := false
  unicode : Bool := true
  /-- Blanks and comments in the notation are passed over. -/
  verbose : Bool := false
  /-- Carriage returns end lines too. -/
  crlf : Bool := false
deriving DecidableEq, Repr

/-- Where the reading stands. -/
structure Reading where
  /-- The notation that is still to be read. -/
  rest : List Char
  flags : Flags := {}
  /-- The names of the groups so far. -/
  names : List (List Char) := []
deriving DecidableEq, Repr

/-- Passes over blanks and comments. -/
def skipVerbose (inComment : Bool) : List Char → List Char
  | [] => []
  | c :: r =>
    if inComment then skipVerbose (c ≠ '\n') r
    else if Text.isBlank c then skipVerbose false r
    else if c = '#' then skipVerbose true r
    else c :: r

/-- The state without the blanks and comments that come next, where they are passed over. -/
def Reading.skip (st : Reading) : Reading :=
  if st.flags.verbose then { st with rest := skipVerbose false st.rest } else st

def Reading.tail (st : Reading) : Reading := { st with rest := st.rest.tail }

def Reading.moveTo (st : Reading) (rest : List Char) : Reading := { st with rest := rest }

/-! ## Sets of characters -/

/-- The set of a class as the flags ask for it. -/
def Flags.fold (f : Flags) (s : CharSet) : CharSet := if f.anyCase then .anyCase s else s

/-- The set of all characters but those of another, which only makes sense for whole characters. -/
def Flags.negate? (f : Flags) (s : CharSet) : Option CharSet :=
  if f.unicode then some (.compl s) else none

/-- The set that `.` stands for. -/
def Flags.dot? (f : Flags) : Option CharSet :=
  if !f.unicode then none
  else if f.dotAll then some (.compl .empty)
  else if f.crlf then some (.allBut ['\n', '\r'])
  else some (.allBut ['\n'])

def ranges (rs : List (Char × Char)) : CharSet :=
  rs.foldl (fun s r => .union s (.range r.1 r.2)) .empty

/-- The set of `\d`, `\s` or `\w`. -/
def shorthand? (f : Flags) (c : Char) : Option CharSet :=
  if c = 'd' then some (if f.unicode then .unicode .decimal else .range '0' '9')
  else if c = 's' then
    some (if f.unicode then .unicode .blank else ranges [('\t', '\r'), (' ', ' ')])
  else if c = 'w' then
    some (if f.unicode then .unicode .word
      else ranges [('0', '9'), ('A', 'Z'), ('a', 'z'), ('_', '_')])
  else none

/-- The sets that have a name between `[:` and `:]`. -/
def namedRanges? (name : List Char) : Option (List (Char × Char)) :=
  [("alnum", [('0', '9'), ('A', 'Z'), ('a', 'z')]), ("alpha", [('A', 'Z'), ('a', 'z')]),
    ("ascii", [('\x00', '\x7F')]), ("blank", [('\t', '\t'), (' ', ' ')]),
    ("cntrl", [('\x00', '\x1F'), ('\x7F', '\x7F')]), ("digit", [('0', '9')]),
    ("graph", [('!', '~')]), ("lower", [('a', 'z')]), ("print", [(' ', '~')]),
    ("punct", [('!', '/'), (':', '@'), ('[', Char.ofNat 0x60), ('\x7b', '~')]),
    ("space", [('\t', '\r'), (' ', ' ')]), ("upper", [('A', 'Z')]),
    ("word", [('0', '9'), ('A', 'Z'), ('a', 'z'), ('_', '_')]),
    ("xdigit", [('0', '9'), ('A', 'F'), ('a', 'f')])].lookup (String.ofList name)

/-- A class name without blanks, hyphens and underscores, in small letters. -/
def plainName (cs : List Char) : String :=
  let cs := Text.lowerAscii (cs.filter fun c => !(Text.isBlank c || c = '-' || c = '_'))
  .ofList (if cs.take 2 = ['i', 's'] && cs ≠ ['i', 's', 'c'] then cs.drop 2 else cs)

/-- Classes of Unicode by name: letters, marks, numbers, punctuation, symbols and separators, the two
cases of letters, decimal digits, and a few properties. Scripts and all finer categories are left
out. -/
def unicodeSet? (name : List Char) : Option CharSet :=
  ([("l", .unicode .letter), ("letter", .unicode .letter), ("lu", .unicode .upperLetter),
    ("uppercaseletter", .unicode .upperLetter), ("ll", .unicode .lowerLetter),
    ("lowercaseletter", .unicode .lowerLetter), ("m", .unicode .mark), ("mark", .unicode .mark),
    ("n", .unicode .number), ("number", .unicode .number), ("nd", .unicode .decimal),
    ("decimalnumber", .unicode .decimal), ("digit", .unicode .decimal),
    ("p", .unicode .punctuation), ("punctuation", .unicode .punctuation),
    ("s", .unicode .symbol), ("symbol", .unicode .symbol), ("z", .unicode .separator),
    ("separator", .unicode .separator), ("alphabetic", .unicode .alphabetic),
    ("alpha", .unicode .alphabetic), ("whitespace", .unicode .blank), ("space", .unicode .blank),
    ("any", .compl .empty), ("ascii", .range '\x00' '\x7F')] : List (String × CharSet)).lookup
      (plainName name)

/-! ## Escapes -/

/-- What an escape stands for. -/
inductive Escape where
  | char (c : Char)
  | set (s : CharSet)
  | anchor (a : Anchor)
deriving DecidableEq, Repr

/-- Whether a character stands for itself after a backslash. -/
def isEscapable (c : Char) : Bool :=
  c.toNat < 0x80 && !c.isAlphanum && c ≠ '<' && c ≠ '>'

def charOfHex? (ds : List Char) : Option Char := do
  let n ← Text.ofDigits? 16 ds
  if n.isValidChar then some (Char.ofNat n) else none

/-- Reads a code of `width` digits, or of any number of digits in braces. -/
def readHex? (width : Nat) (cs : List Char) : Option (Char × List Char) :=
  match cs with
  | '\x7b' :: r => do
    let ds := r.takeWhile (· ≠ '\x7d')
    match r.drop ds.length with
    | [] => none
    | _ :: rest => return (← charOfHex? ds, rest)
  | cs => do
    if (cs.take width).length < width then none
    else return (← charOfHex? (cs.take width), cs.drop width)

/-- Reads the name of a class of Unicode after `\p` or `\P`. -/
def readUnicode? (f : Flags) (negated : Bool) (cs : List Char) : Option (CharSet × List Char) := do
  let (name, rest) ← (
    match cs with
    | [] => none
    | '\x7b' :: r =>
      let name := r.takeWhile (· ≠ '\x7d')
      match r.drop name.length with
      | [] => none
      | _ :: rest => some (name, rest)
    | c :: r => some ([c], r))
  let (inverted, name) :=
    match name with
    | '^' :: name => (true, name)
    | name => (false, name)
  let s := f.fold (← unicodeSet? name)
  if !f.unicode then none
  else return (if negated != inverted then .compl s else s, rest)

/-- The conditions `\b` can be narrowed to by a name in braces. -/
def edgeNamed? (name : List Char) : Option Anchor :=
  [("start", Anchor.wordStart), ("end", .wordEnd), ("start-half", .noWordBefore),
    ("end-half", .noWordAfter)].lookup (String.ofList name)

/-- Reads what comes after a backslash. -/
def readEscape? (f : Flags) : List Char → Option (Escape × List Char)
  | [] => none
  | c :: r =>
    if c = 'x' then (readHex? 2 r).map fun (d, r) => (.char d, r)
    else if c = 'u' then (readHex? 4 r).map fun (d, r) => (.char d, r)
    else if c = 'U' then (readHex? 8 r).map fun (d, r) => (.char d, r)
    else if c = 'p' || c = 'P' then (readUnicode? f (c = 'P') r).map fun (s, r) => (.set s, r)
    else if c = 'D' || c = 'S' || c = 'W' then do
      return (.set (← f.negate? (← shorthand? f c.toLower)), r)
    else
      match shorthand? f c with
      | some s => some (.set s, r)
      | none =>
        if isEscapable c then some (.char c, r)
        else if c = 'a' then some (.char '\x07', r)
        else if c = 'f' then some (.char '\x0C', r)
        else if c = 't' then some (.char '\t', r)
        else if c = 'n' then some (.char '\n', r)
        else if c = 'r' then some (.char '\r', r)
        else if c = 'v' then some (.char '\x0B', r)
        else if c = 'A' then some (.anchor .textStart, r)
        else if c = 'z' then some (.anchor .textEnd, r)
        else if c = 'B' then some (.anchor .noWordEdge, r)
        else if c = '<' then some (.anchor .wordStart, r)
        else if c = '>' then some (.anchor .wordEnd, r)
        else if c = 'b' then
          match r with
          | '\x7b' :: s =>
            let name := s.takeWhile fun d => d.isAlpha || d = '-'
            match s.drop name.length, name with
            | '\x7d' :: rest, _ :: _ => (edgeNamed? name).map fun a => (.anchor a, rest)
            | _, [] => some (.anchor .wordEdge, r)
            | _, _ => none
          | _ => some (.anchor .wordEdge, r)
        else none

/-! ## Classes in brackets -/

/-- How two sets are put together. -/
def setOperation? : List Char → Option (CharSet → CharSet → CharSet)
  | '&' :: '&' :: _ => some .inter
  | '-' :: '-' :: _ => some .diff
  | '~' :: '~' :: _ => some .symmDiff
  | _ => none

/-- Reads a named set after `[:`. -/
def readNamed? (cs : List Char) : Option (CharSet × List Char) := do
  let (negated, cs) :=
    match cs with
    | '^' :: r => (true, r)
    | cs => (false, cs)
  let name := cs.takeWhile (· ≠ ':')
  match cs.drop name.length with
  | ':' :: ']' :: rest =>
    let s := ranges (← namedRanges? name)
    return (if negated then .compl s else s, rest)
  | _ => none

/-- Reads one end of a range, or an element of a class. -/
def readElement? (st : Reading) : Option (Escape × Reading) :=
  match st.rest with
  | [] => none
  | '\\' :: r => (readEscape? st.flags r).map fun (e, r) => (e, st.moveTo r)
  | c :: r => some (.char c, st.moveTo r)

/-- Whether a hyphen that comes next stands between the ends of a range. -/
def rangeFollows (st : Reading) : Bool :=
  match st.rest with
  | '-' :: _ =>
    match st.tail.skip.rest with
    | ']' :: _ | '-' :: _ => false
    | _ => true
  | _ => false

def readRange? (st : Reading) : Option (CharSet × Reading) := do
  let (first, st) ← readElement? st
  let st := st.skip
  if st.rest.isEmpty then none
  else if rangeFollows st then
    let st := st.tail.skip
    let (last, st) ← readElement? st
    match first, last with
    | .char a, .char b => if a ≤ b then some (.range a b, st) else none
    | _, _ => none
  else
    match first with
    | .char c => some (.single c, st)
    | .set s => some (s, st)
    | .anchor _ => none

/-- Reads the hyphens at the start of a class, and a closing bracket that comes first. -/
def readClassStart (st : Reading) : Nat → CharSet → Bool → CharSet × Reading
  | 0, s, _ => (s, st)
  | n + 1, s, first =>
    match st.rest with
    | '-' :: _ => readClassStart st.tail.skip n (.union s (.single '-')) false
    | ']' :: _ => if first then (.union s (.single ']'), st.tail.skip) else (s, st)
    | _ => (s, st)

mutual

/-- Reads a class after its opening bracket. -/
def readClass? : Nat → Reading → Option (CharSet × Reading)
  | 0, _ => none
  | n + 1, st => do
    let st := st.skip
    let (negated, st) :=
      match st.rest with
      | '^' :: _ => (true, st.tail.skip)
      | _ => (false, st)
    let (start, st) := readClassStart st (st.rest.length + 1) .empty true
    let (s, st) ← readItems? n none start st
    let s := st.flags.fold s
    if negated then return (← st.flags.negate? s, st) else return (s, st)

/-- Reads the items of a class up to its closing bracket, where `items` holds those read since the
last set operation, and `left` the operation with the set before it. -/
def readItems? : Nat → Option (CharSet → CharSet) → CharSet → Reading → Option (CharSet × Reading)
  | 0, _, _, _ => none
  | n + 1, left, items, st =>
    let st := st.skip
    let whole := (left.getD id) items
    match st.rest with
    | [] => none
    | ']' :: _ => some (whole, st.tail)
    | '[' :: r =>
      match (if r.head? = some ':' then readNamed? (r.drop 1) else none) with
      | some (s, rest) => readItems? n left (.union items s) (st.moveTo rest)
      | none => do
        let (s, st) ← readClass? n st.tail
        readItems? n left (.union items s) st
    | cs =>
      match setOperation? cs with
      | some op => readItems? n (some (op (st.flags.fold whole))) .empty (st.moveTo (cs.drop 2))
      | none => do
        let (s, st) ← readRange? st
        readItems? n left (.union items s) st

end

/-! ## Repetitions -/

/-- Whether the repetition read last is greedy, and the state after the mark that swaps it. -/
def readGreed (st : Reading) : Bool × Reading :=
  match st.rest with
  | '?' :: _ => (st.flags.swapGreed, st.tail)
  | _ => (!st.flags.swapGreed, st)

/-- Reads a number with blanks around it. -/
def readCount? (cs : List Char) : Option (Nat × List Char) := do
  let cs := Text.trimStart cs
  let ds := cs.takeWhile Char.isDigit
  let n ← Text.ofDigits? 10 ds
  if n < UInt32.size then return (n, Text.trimStart (cs.drop ds.length)) else none

/-- Reads the bounds of a repetition after the opening brace. -/
def readBounds? (cs : List Char) : Option (Nat × Option Nat × List Char) := do
  let (least, cs) ← readCount? cs
  match cs with
  | '\x7d' :: r => return (least, some least, r)
  | ',' :: r =>
    match Text.trimStart r with
    | '\x7d' :: r => return (least, none, r)
    | r =>
      let (most, r) ← readCount? r
      match r with
      | '\x7d' :: r => if least ≤ most then return (least, some most, r) else none
      | _ => none
  | _ => none

/-- Reads the repetition marks after an expression. -/
def readRepeats? : Nat → Regex → Reading → Option (Regex × Reading)
  | 0, _, _ => none
  | n + 1, r, st =>
    let st := st.skip
    match st.rest with
    | '*' :: _ =>
      let (greedy, st) := readGreed st.tail
      readRepeats? n (star greedy r) st
    | '+' :: _ =>
      let (greedy, st) := readGreed st.tail
      readRepeats? n (.plus greedy r) st
    | '?' :: _ =>
      let (greedy, st) := readGreed st.tail
      readRepeats? n (opt greedy r) st
    | '\x7b' :: cs => do
      let (least, most, cs) ← readBounds? cs
      let (greedy, st) := readGreed (st.moveTo cs)
      readRepeats? n (rounds greedy r least most) st
    | _ => some (r, st)

/-! ## Groups -/

def Flags.set? (f : Flags) (c : Char) (on : Bool) : Option Flags :=
  if c = 'i' then some { f with anyCase := on }
  else if c = 'm' then some { f with multiLine := on }
  else if c = 's' then some { f with dotAll := on }
  else if c = 'U' then some { f with swapGreed := on }
  else if c = 'u' then some { f with unicode := on }
  else if c = 'R' then some { f with crlf := on }
  else if c = 'x' then some { f with verbose := on }
  else none

/-- Reads flags up to a `:` or `)`, which is left; `seen` holds those read, and `last` tells whether
a minus sign came last. -/
def readFlags? (on last : Bool) (seen : List Char) (f : Flags) :
    List Char → Option (Flags × List Char)
  | [] => none
  | c :: r =>
    if c = ':' || c = ')' then if last then none else some (f, c :: r)
    else if c = '-' then if on then readFlags? false true seen f r else none
    else if c ∈ seen then none
    else
      match f.set? c on with
      | none => none
      | some f => readFlags? on false (c :: seen) f r

/-- Whether the name of a group may start, or go on, with a character. -/
def isGroupNameChar (first : Bool) (c : Char) : Bool :=
  c = '_' || Text.isAlphabetic c ||
    (!first && (Text.isAlphanumeric c || c = '.' || c = '[' || c = ']'))

def readGroupName? (st : Reading) : Option Reading :=
  let name := st.rest.takeWhile (· ≠ '>')
  match st.rest.drop name.length, name with
  | _ :: rest, c :: cs =>
    if isGroupNameChar true c && cs.all (isGroupNameChar false) && !(name ∈ st.names) then
      some { st with rest := rest, names := name :: st.names }
    else none
  | _, _ => none

/-- What opens after a parenthesis. -/
inductive Opening where
  /-- A group, which has flags of its own. -/
  | group (st : Reading)
  /-- Flags for the rest of the group around it. -/
  | flags (st : Reading)
deriving DecidableEq, Repr

def readOpening? (st : Reading) : Option Opening :=
  match st.rest with
  | '?' :: '=' :: _ | '?' :: '!' :: _ | '?' :: '<' :: '=' :: _ | '?' :: '<' :: '!' :: _ => none
  | '?' :: 'P' :: '<' :: r | '?' :: '<' :: r => (readGroupName? (st.moveTo r)).map .group
  | '?' :: r => do
    let (f, rest) ← readFlags? true false [] st.flags r
    match rest with
    | ':' :: rest => return .group { st with rest := rest, flags := f }
    | _ :: rest =>
      if r.head? = some ')' then none else return .flags { st with rest := rest, flags := f }
    | [] => none
  | _ => some (.group st)

/-! ## Expressions -/

def literal (f : Flags) (c : Char) : Regex := .one (f.fold (.single c))

/-- The condition of `^`. -/
def Flags.startAnchor (f : Flags) : Anchor :=
  if f.multiLine then if f.crlf then .crlfLineStart else .lineStart else .textStart

/-- The condition of `$`. -/
def Flags.endAnchor (f : Flags) : Anchor :=
  if f.multiLine then if f.crlf then .crlfLineEnd else .lineEnd else .textEnd

/-- Two expressions one after the other. -/
def joined : Regex → Regex → Regex
  | r, .empty => r
  | r, s => .cat r s

mutual

/-- Reads alternatives up to a closing parenthesis or the end. -/
def readAlternatives? : Nat → Reading → Option (Regex × Reading)
  | 0, _ => none
  | n + 1, st => do
    let (r, st) ← readSequence? n st
    match st.rest with
    | '|' :: _ =>
      let (s, st) ← readAlternatives? n st.tail
      return (.alt r s, st)
    | _ => return (r, st)

def readSequence? : Nat → Reading → Option (Regex × Reading)
  | 0, _ => none
  | n + 1, st =>
    let st := st.skip
    match st.rest with
    | [] | '|' :: _ | ')' :: _ => some (.empty, st)
    | '(' :: _ => do
      match ← readOpening? st.tail.skip with
      | .flags st => readSequence? n st
      | .group inner =>
        let (r, after) ← readAlternatives? n inner
        match after.rest with
        | ')' :: rest => readRest? n r { after with rest := rest, flags := st.flags }
        | _ => none
    -- a repetition has nothing to repeat here
    | '*' :: _ | '+' :: _ | '?' :: _ | '\x7b' :: _ => none
    | '[' :: _ => do
      let (s, st) ← readClass? n st.tail
      readRest? n (.one s) st
    | '.' :: _ => do readRest? n (.one (← st.flags.dot?)) st.tail
    | '^' :: _ => readRest? n (.anchor st.flags.startAnchor) st.tail
    | '$' :: _ => readRest? n (.anchor st.flags.endAnchor) st.tail
    | '\\' :: cs => do
      let (e, cs) ← readEscape? st.flags cs
      match e with
      | .char c => readRest? n (literal st.flags c) (st.moveTo cs)
      | .set s => readRest? n (.one s) (st.moveTo cs)
      | .anchor a => readRest? n (.anchor a) (st.moveTo cs)
    | c :: cs => readRest? n (literal st.flags c) (st.moveTo cs)

/-- Reads the repetition marks after an expression, and the rest of the sequence. -/
def readRest? : Nat → Regex → Reading → Option (Regex × Reading)
  | 0, _, _ => none
  | n + 1, r, st => do
    let (r, st) ← readRepeats? (st.rest.length + 1) r st
    let (s, st) ← readSequence? n st
    return (joined r s, st)

end

/-- How many nested calls lead from one character to the next. -/
def callsPerChar : Nat := 4

/-- The expression that a text denotes, if it denotes one. -/
def read? (cs : List Char) : Option Regex := do
  let (r, st) ← readAlternatives? (callsPerChar * (cs.length + 2)) { rest := cs }
  if st.rest.isEmpty then some r else none

/-- A way to compile regular expressions. -/
structure Engine where
  /-- The expression that a text stands for, if the engine accepts it. -/
  compile? : String → Option Regex

namespace Engine

/-- The engine that reads the notation above. Of the classes that Unicode names it knows those of
`unicodeSet?`, and it does not limit the size of an expression, so others may accept other texts. -/
def standard : Engine := ⟨fun source => read? source.toList⟩

@[simp] theorem compile?_standard (source : String) :
    standard.compile? source = read? source.toList := rfl

end Engine

end DirectiveRunner.Regex

namespace DirectiveRunner

/-- A regular expression with the text it was read from. -/
structure Pattern where
  source : String
  regex : Regex
deriving DecidableEq, Repr

def Pattern.compile? (source : String) (engine : Regex.Engine := .standard) : Option Pattern :=
  (engine.compile? source).map fun r => ⟨source, r⟩

end DirectiveRunner
