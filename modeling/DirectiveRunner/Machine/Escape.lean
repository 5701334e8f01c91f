import DirectiveRunner.Text.Digits
import DirectiveRunner.Text.Utf8
/-!
# Escapes in printed text

What programs that print their arguments make of a backslash: a letter stands for a control character,
up to three octal digits for a byte, and `\c` ends the output. A backslash before anything else stands
for itself.
-/

namespace DirectiveRunner.Machine

/-- What a piece of escaped text stands for. -/
inductive Escaped where
  | bytes (bs : List UInt8)
  /-- The end of the output. -/
  | stop
deriving DecidableEq, Repr

def bytesOf (cs : List Char) : List UInt8 := (Text.Utf8.encode (.ofList cs)).toList

/-- The control character that a letter after a backslash stands for. -/
def controlOf? (c : Char) : Option UInt8 :=
  [('a', 7), ('b', 8), ('t', 9), ('n', 10), ('v', 11), ('f', 12), ('r', 13), ('e', 27),
    ('\\', 92), ('"', 34)].lookup c

/-- The byte of up to `limit` octal digits, and the rest. -/
def readOctal (limit : Nat) (cs : List Char) : UInt8 × List Char :=
  let ds := (cs.take limit).takeWhile (Text.isDigitOf 8)
  (.ofNat ((Text.ofDigits? 8 ds).getD 0), cs.drop ds.length)

/-- Reads what follows a backslash. If `zeroFirst`, a zero may stand in front of the octal digits. -/
def readEscape (zeroFirst : Bool) : List Char → Escaped × List Char
  | [] => (.bytes [92], [])
  | 'c' :: cs => (.stop, cs)
  | c :: cs =>
    match controlOf? c with
    | some b => (.bytes [b], cs)
    | none =>
      if Text.isDigitOf 8 c then
        let (b, rest) := readOctal 3 (if zeroFirst && c = '0' then cs else c :: cs)
        (.bytes [b], rest)
      else (.bytes (92 :: bytesOf [c]), cs)

/-- The bytes of a text with escapes, and whether it ends the output; `steps` is at least the length of
the text. -/
def unescape : (steps : Nat) → List Char → List UInt8 × Bool
  | 0, _ | _, [] => ([], false)
  | steps + 1, '\\' :: cs =>
    match readEscape true cs with
    | (.stop, _) => ([], true)
    | (.bytes bs, rest) =>
      let (more, stopped) := unescape steps rest
      (bs ++ more, stopped)
  | steps + 1, c :: cs =>
    let (more, stopped) := unescape steps cs
    (bytesOf [c] ++ more, stopped)

end DirectiveRunner.Machine
