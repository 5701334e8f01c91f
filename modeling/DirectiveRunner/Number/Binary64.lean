import DirectiveRunner.Text.Digits
/-!
# Floating point numbers

Non-negative numbers of the format binary64, kept as an integer times a power of two and worked on
exactly: every operation rounds its exact result once, to the nearest number of the format and to the
even one of two that are equally near. `shortest` gives the shortest decimal digits that are read back
as the same number.
-/

namespace DirectiveRunner

/-- The quotient rounded to the nearest integer, to the even one of two that are equally near. -/
def roundedQuotient (n d : Nat) : Nat :=
  let q := n / d
  let r := n % d
  if 2 * r < d || (2 * r = d && q % 2 = 0) then q else q + 1

/-- The number `mantissa * 2 ^ exponent`. -/
structure Binary64 where
  mantissa : Nat
  exponent : Int
deriving DecidableEq, Repr

namespace Binary64

/-- A fraction `n / d` times a power of two, as a fraction. -/
def scaled (n d : Nat) (e : Int) : Nat × Nat :=
  if 0 ≤ e then (n * Nat.pow 2 e.toNat, d) else (n, d * Nat.pow 2 (-e).toNat)

def fraction (x : Binary64) : Nat × Nat := scaled x.mantissa 1 x.exponent

def leastExponent : Int := -1074

/-- The exponent that gives `n / d` a mantissa of 53 bits, as far as the format has it. -/
def exponentFor (n d : Nat) : Int :=
  let e : Int := (n.log2 : Int) - d.log2 - 52
  let (n', d') := scaled n d (-e)
  max leastExponent (if n' < Nat.pow 2 52 * d' then e - 1 else e)

/-- The number nearest to `n / d`; none if it is too large for the format. -/
def nearest? (n d : Nat) : Option Binary64 :=
  if n = 0 then some ⟨0, 0⟩
  else
    let e := exponentFor n d
    let (n', d') := scaled n d (-e)
    let m := roundedQuotient n' d'
    let x : Binary64 := if m = Nat.pow 2 53 then ⟨Nat.pow 2 52, e + 1⟩ else ⟨m, e⟩
    if 971 < x.exponent then none else some x

/-- The number nearest to `digits * 10 ^ power`. -/
def ofDecimal? (digits : Nat) (power : Int) : Option Binary64 :=
  if 0 ≤ power then nearest? (digits * Nat.pow 10 power.toNat) 1
  else nearest? digits (Nat.pow 10 (-power).toNat)

def dividedBy (x : Binary64) (d : Nat) : Binary64 :=
  let (n, d') := x.fraction
  (nearest? n (d' * d)).getD x

/-- The sum of a number and an integer; none if it is too large for the format. -/
def plus? (x : Binary64) (k : Nat) : Option Binary64 :=
  let (n, d) := x.fraction
  nearest? (k * d + n) d

def atLeast (x : Binary64) (n : Nat) : Bool :=
  let (p, q) := x.fraction
  n * q ≤ p

/-- How many tenths a number has, rounded. -/
def tenths (x : Binary64) : Nat :=
  let (n, d) := x.fraction
  roundedQuotient (10 * n) d

/-- The power of ten that leaves `n / d` with `count` digits before the point, or one fewer. -/
def powerFor (n d count : Nat) : Int :=
  let size (k : Nat) : Int := (Text.decimal k).length
  size (n / d) - (if n / d = 0 then size (d / n) else 0) - count

/-- The candidates with `count` digits on both sides of a number, as digits and power of ten, the
nearer one first. -/
def candidates (x : Binary64) (count : Nat) : List (Nat × Int) :=
  let (n, d) := x.fraction
  let p := powerFor n d count
  let (n, d) := if 0 ≤ p then (n, d * Nat.pow 10 p.toNat) else (n * Nat.pow 10 (-p).toNat, d)
  let q := n / d
  if n % d = 0 then [(q, p)]
  else if 2 * (n % d) < d || (2 * (n % d) = d && q % 2 = 0) then [(q, p), (q + 1, p)]
  else [(q + 1, p), (q, p)]

/-- Takes the zeros off the end of some digits; `fuel` bounds how many. -/
def withoutZeros : Nat → Nat × Int → Nat × Int
  | 0, c => c
  | fuel + 1, (m, p) => if m ≠ 0 && m % 10 = 0 then withoutZeros fuel (m / 10, p + 1) else (m, p)

/-- The shortest digits, with a power of ten, that are read back as the number. -/
def shortest (x : Binary64) : Nat × Int :=
  if x.mantissa = 0 then (0, 0)
  else
    let found := (List.range 18).findSome? fun k =>
      (x.candidates (k + 1)).find? fun c => ofDecimal? c.1 c.2 = some x
    withoutZeros 20 (found.getD (0, 0))

/-- A number in decimal, with a point or, if it is very large or small, a power of ten. -/
def text (x : Binary64) : List Char :=
  let (m, p) := x.shortest
  if m = 0 then "0.0".toList
  else
    let ds := Text.decimal m
    let point : Int := ds.length + p
    if 0 ≤ p && point ≤ 16 then ds ++ List.replicate p.toNat '0' ++ ['.', '0']
    else if 0 < point && point ≤ 16 then ds.take point.toNat ++ ['.'] ++ ds.drop point.toNat
    else if -5 < point && point ≤ 0 then ['0', '.'] ++ List.replicate (-point).toNat '0' ++ ds
    else
      ds.take 1 ++ (if ds.length = 1 then [] else ['.'] ++ ds.drop 1) ++ ['e'] ++
        (showInt (point - 1)).toList

end Binary64

end DirectiveRunner
