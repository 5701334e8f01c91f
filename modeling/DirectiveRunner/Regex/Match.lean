import DirectiveRunner.Regex.CharSet
/-!
# Regular expressions and their matches

A match starts at the first place where there is one, and among the matches that start there the
expression prefers some to others: the left side of an alternative to the right one, and more rounds
of a repetition to fewer, or the other way round if it is lazy. `ends` lists the places where a match
can end in that order, each place once, so the match that is found is the first one of the list.

A round of a repetition that takes no character ends the repetition there; another such round could
add nothing.
-/

namespace DirectiveRunner

namespace Regex

/-- A condition on a place in a text. -/
inductive Anchor where
  | textStart | textEnd
  | lineStart | lineEnd
  /-- The start of a line, where a carriage return and a line feed end a line together. -/
  | crlfLineStart
  /-- The end of a line, where a carriage return and a line feed end a line together. -/
  | crlfLineEnd
  | wordEdge | noWordEdge
  | wordStart | wordEnd
  | noWordBefore
  | noWordAfter
deriving DecidableEq, Repr

/-- A place in a text: how far from its start, the character before it and those after it. -/
structure Cursor where
  /-- How many characters come before. -/
  position : Nat
  before : Option Char
  after : List Char
deriving DecidableEq, Repr

def Cursor.next? (k : Cursor) : Option (Char × Cursor) :=
  match k.after with
  | [] => none
  | c :: r => some (c, ⟨k.position + 1, some c, r⟩)

def Anchor.holds (a : Anchor) (k : Cursor) : Bool :=
  let wordBefore := k.before.any Text.isWord
  let wordAfter := k.after.head?.any Text.isWord
  match a with
  | textStart => k.before.isNone
  | textEnd => k.after.isEmpty
  | lineStart => k.before.isNone || k.before = some '\n'
  | lineEnd => k.after.isEmpty || k.after.head? = some '\n'
  | crlfLineStart =>
    k.before.isNone || k.before = some '\n' ||
      (k.before = some '\r' && k.after.head? ≠ some '\n')
  | crlfLineEnd =>
    k.after.isEmpty || k.after.head? = some '\r' ||
      (k.after.head? = some '\n' && k.before ≠ some '\r')
  | wordEdge => wordBefore != wordAfter
  | noWordEdge => wordBefore == wordAfter
  | wordStart => !wordBefore && wordAfter
  | wordEnd => wordBefore && !wordAfter
  | noWordBefore => !wordBefore
  | noWordAfter => !wordAfter

end Regex

inductive Regex where
  | empty
  | one (s : Regex.CharSet)
  | anchor (a : Regex.Anchor)
  | cat (r s : Regex)
  /-- One expression or, less preferred, the other. -/
  | alt (r s : Regex)
  /-- One or more rounds; more of them are preferred if it is greedy. -/
  | plus (greedy : Bool) (r : Regex)
deriving DecidableEq, Repr

namespace Regex

def opt (greedy : Bool) (r : Regex) : Regex := if greedy then .alt r .empty else .alt .empty r

def star (greedy : Bool) (r : Regex) : Regex := opt greedy (.plus greedy r)

def times (r : Regex) : Nat → Regex
  | 0 => .empty
  | 1 => r
  | n + 1 => .cat r (times r n)

def upTo (greedy : Bool) (r : Regex) : Nat → Regex
  | 0 => .empty
  | 1 => opt greedy r
  | n + 1 => opt greedy (.cat r (upTo greedy r n))

/-- At least `least` rounds and, if there is a bound, at most `most`. -/
def rounds (greedy : Bool) (r : Regex) (least : Nat) (most : Option Nat) : Regex :=
  match least, most with
  | 0, none => star greedy r
  | 1, none => .plus greedy r
  | n + 1, none => .cat (times r n) (.plus greedy r)
  | n, some m =>
    if m = n then times r n
    else if n = 0 then upTo greedy r m
    else .cat (times r n) (upTo greedy r (m - n))

/-- The places in order, each only where it comes first. -/
def distinct : List Cursor → List Cursor
  | [] => []
  | k :: ks => k :: (distinct ks).filter (·.position ≠ k.position)

/-- The ends of one or more rounds from a place, and the places from which rounds have been looked
at; `fuel` bounds the number of rounds. -/
def roundsFrom (step : Cursor → List Cursor) (greedy : Bool) :
    Nat → List Nat → Cursor → List Cursor × List Nat
  | 0, seen, _ => ([], seen)
  | fuel + 1, seen, k =>
    -- what follows from a place is found when it is first come to, and need not be found again
    if k.position ∈ seen then ([], seen)
    else
      (step k).foldl (fun (found, seen) k' =>
        -- a round that matches the empty text is the last one
        if k'.position = k.position then (found ++ [k'], seen)
        else
          let (more, seen) := roundsFrom step greedy fuel seen k'
          (found ++ if greedy then more ++ [k'] else k' :: more, seen))
        ([], k.position :: seen)

/-- The places where a match from a place can end, the preferred ones first. -/
def ends : Regex → Cursor → List Cursor
  | .empty, k => [k]
  | .one s, k =>
    match k.next? with
    | some (c, k') => if s.has c then [k'] else []
    | none => []
  | .anchor a, k => if a.holds k then [k] else []
  | .cat r s, k => distinct ((ends r k).flatMap (ends s))
  | .alt r s, k => distinct (ends r k ++ ends s k)
  | .plus greedy r, k =>
    distinct (roundsFrom (ends r) greedy (k.after.length + 1) [] k).1

def Cursor.start (cs : List Char) : Cursor := ⟨0, none, cs⟩

/-- The end of the first match that starts at a place or later. -/
def findFrom (r : Regex) (position : Nat) (before : Option Char) : List Char → Option Cursor
  | [] => (r.ends ⟨position, before, []⟩).head?
  | c :: cs =>
    match r.ends ⟨position, before, c :: cs⟩ with
    | k :: _ => some k
    | [] => findFrom r (position + 1) (some c) cs

/-- The text after the first match. -/
def afterMatch? (r : Regex) (cs : List Char) : Option (List Char) :=
  (r.findFrom 0 none cs).map (·.after)

/-- Whether there is a match anywhere in a text. -/
def isMatch (r : Regex) (cs : List Char) : Bool := (r.findFrom 0 none cs).isSome

end Regex

end DirectiveRunner
