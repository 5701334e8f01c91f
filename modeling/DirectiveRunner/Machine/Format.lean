import DirectiveRunner.Machine.Escape
/-!
# Formats

A format is printed with arguments in place of its directives, and again as long as arguments are left
over. A directive without an argument prints as if it had an empty one.
-/

namespace DirectiveRunner.Machine

/-- How an argument is printed. -/
inductive Conversion where
  | text
  | escaped
  /-- Its first character. -/
  | character
  | signed
  | unsigned (base : Nat) (capitals : Bool)
deriving DecidableEq, Repr

/-- A directive of a format. -/
structure FormatSpec where
  /-- Whether to fill up on the right. -/
  left : Bool := false
  /-- Whether numbers are filled up with zeros. -/
  zeros : Bool := false
  /-- What stands before a number that is not negative. -/
  plus : List Char := []
  width : Nat := 0
  /-- The greatest number of characters, or the least number of digits. -/
  precision : Option Nat := none
  conversion : Conversion
deriving DecidableEq, Repr

/-- A piece of a format. -/
inductive FormatPiece where
  | literal (bs : List UInt8)
  /-- A place for an argument. -/
  | spec (s : FormatSpec)
  /-- The end of the output. -/
  | stop
  /-- Something that is no directive. -/
  | malformed
deriving DecidableEq, Repr

def conversionOf? (c : Char) : Option Conversion :=
  [('s', .text), ('b', .escaped), ('c', .character), ('d', .signed), ('i', .signed),
    ('u', .unsigned 10 false), ('o', .unsigned 8 false), ('x', .unsigned 16 false),
    ('X', .unsigned 16 true)].lookup c

/-- Reads a directive after its percent sign. -/
def readSpec (cs : List Char) : FormatPiece × List Char :=
  let flags := cs.takeWhile (· ∈ "-+ 0#".toList)
  let cs := cs.drop flags.length
  let width := cs.takeWhile (Text.isDigitOf 10)
  let cs := cs.drop width.length
  let (precision, cs) :=
    match cs with
    | '.' :: cs =>
      let digits := cs.takeWhile (Text.isDigitOf 10)
      (some ((Text.ofDigits? 10 digits).getD 0), cs.drop digits.length)
    | cs => (none, cs)
  match cs with
  | [] => (.malformed, [])
  | c :: cs =>
    match conversionOf? c with
    | none => (.malformed, cs)
    | some conversion =>
      (.spec {
        conversion, precision
        left := '-' ∈ flags
        zeros := '0' ∈ flags
        plus := if '+' ∈ flags then ['+'] else if ' ' ∈ flags then [' '] else []
        width := (Text.ofDigits? 10 width).getD 0 }, cs)

/-- The pieces of a format; `steps` is at least its length. -/
def readFormat : (steps : Nat) → List Char → List FormatPiece
  | 0, _ | _, [] => []
  | steps + 1, '%' :: '%' :: cs => .literal [37] :: readFormat steps cs
  | steps + 1, '%' :: cs =>
    let (piece, rest) := readSpec cs
    piece :: readFormat steps rest
  | steps + 1, '\\' :: cs =>
    match readEscape false cs with
    | (.stop, _) => [.stop]
    | (.bytes bs, rest) => .literal bs :: readFormat steps rest
  | steps + 1, c :: cs => .literal (bytesOf [c]) :: readFormat steps cs

/-- The number of digits in a base, and whether there is nothing else. -/
def readNumeral (base : Nat) (cs : List Char) : Nat × Bool :=
  let ds := cs.takeWhile (Text.isDigitOf base)
  ((Text.ofDigits? base ds).getD 0, !ds.isEmpty && ds.length = cs.length)

/-- The number of an argument, and whether it is one. -/
def numberOf (cs : List Char) : Int × Bool :=
  match cs with
  | [] => (0, true)
  | '"' :: c :: _ | '\'' :: c :: _ => (c.toNat, true)
  | '-' :: cs =>
    let (n, good) := readMagnitude cs
    (-n, good)
  | '+' :: cs | cs =>
    let (n, good) := readMagnitude cs
    (n, good)
where
  /-- The number without its sign. -/
  readMagnitude : List Char → Nat × Bool
    | '0' :: 'x' :: cs | '0' :: 'X' :: cs => readNumeral 16 cs
    | '0' :: cs => if cs.isEmpty then (0, true) else readNumeral 8 cs
    | cs => readNumeral 10 cs

/-- Some bytes filled up to the width of a directive. -/
def FormatSpec.fill (s : FormatSpec) (bs : List UInt8) : List UInt8 :=
  let blanks := List.replicate (s.width - bs.length) 32
  if s.left then bs ++ blanks else blanks ++ bs

def FormatSpec.number (s : FormatSpec) (sign digits : List Char) : List UInt8 :=
  let digits := Text.padded (s.precision.getD 1) digits
  let digits :=
    if s.zeros && !s.left && s.precision.isNone then Text.padded (s.width - sign.length) digits
    else digits
  s.fill (bytesOf (sign ++ digits))

structure Printed where
  bytes : List UInt8 := []
  /-- The arguments that are left. -/
  left : List String := []
  /-- Whether the output was ended. -/
  stopped : Bool := false
  /-- Whether something was wrong. -/
  failed : Bool := false
deriving DecidableEq, Repr

def FormatSpec.print (s : FormatSpec) (argument : String) (left : List String) : Printed :=
  let cs := argument.toList
  let (n, good) := numberOf cs
  match s.conversion with
  | .text =>
    let bs := bytesOf cs
    { bytes := s.fill (bs.take (s.precision.getD bs.length)), left }
  | .escaped =>
    let (bs, stopped) := unescape cs.length cs
    { bytes := s.fill (bs.take (s.precision.getD bs.length)), left, stopped }
  | .character => { bytes := s.fill ((bytesOf cs).take 1), left }
  | .signed =>
    let sign := if n < 0 then ['-'] else s.plus
    { bytes := s.number sign (Text.decimal n.natAbs), left, failed := !good }
  | .unsigned base capitals =>
    let ds := Text.digits base (n % Int.pow 2 64).toNat
    let ds := if capitals then ds.map Char.toUpper else ds
    { bytes := s.number [] ds, left, failed := !good }

/-- Prints the pieces of a format once. -/
def printPieces (left : List String) : List FormatPiece → Printed
  | [] => { left }
  | .stop :: _ => { left, stopped := true }
  | .malformed :: _ => { left, stopped := true, failed := true }
  | .literal bs :: ps =>
    let rest := printPieces left ps
    { rest with bytes := bs ++ rest.bytes }
  | .spec s :: ps =>
    let first := s.print (left.headD "") left.tail
    if first.stopped then first
    else
      let rest := printPieces first.left ps
      { rest with bytes := first.bytes ++ rest.bytes, failed := first.failed || rest.failed }

/-- Prints the pieces again while arguments are left and used up; `rounds` is at least the number of
arguments. -/
def printAgain (ps : List FormatPiece) (p : Printed) : (rounds : Nat) → Printed
  | 0 => p
  | rounds + 1 =>
    if p.stopped || p.left.isEmpty then p
    else
      let next := printPieces p.left ps
      if next.left.length = p.left.length then p
      else
        printAgain ps
          { next with bytes := p.bytes ++ next.bytes, failed := p.failed || next.failed } rounds

def printFormat (format : String) (arguments : List String) : Printed :=
  let cs := format.toList
  let ps := readFormat cs.length cs
  printAgain ps (printPieces arguments ps) arguments.length

end DirectiveRunner.Machine
