import DirectiveRunner.Number.Binary64
import DirectiveRunner.Value
import DirectiveRunner.Yaml.Document
/-!
# Data of YAML

What the scalars of a document stand for: a plain scalar may be nothing, a truth value or a number, and
everything else is text. A key may occur only once in a mapping, where keys count as equal when they are
equal as data. As a value of an expression (`Data.toValue`) an integer that does not fit in 64 bits and
a number with a fraction are texts, and so is every key.
-/

namespace DirectiveRunner.Yaml

/-- What a document stands for. -/
inductive Data where
  | null
  | bool (b : Bool)
  | int (n : Int)
  /-- A number that is no integer, in decimal. -/
  | float (text : List Char)
  | str (text : List Char)
  | sequence (items : List Data)
  /-- A mapping in the order of its entries. -/
  | mapping (entries : List (Data × Data))
  | tagged (tag : List Char) (d : Data)
deriving Repr, Inhabited

/-! ## Scalars -/

def isNull (cs : List Char) : Bool := String.ofList cs ∈ ["null", "Null", "NULL", "~"]

def readBool? (cs : List Char) : Option Bool :=
  let s := String.ofList cs
  if s ∈ ["true", "True", "TRUE"] then some true
  else if s ∈ ["false", "False", "FALSE"] then some false
  else none

def hasSign (cs : List Char) : Bool := cs.head?.any fun c => c = '+' || c = '-'

/-- Whether a text has a zero in front of further digits, which makes it a text. -/
def hasLeadingZero (cs : List Char) : Bool :=
  let cs := if hasSign cs then cs.tail else cs
  1 < cs.length && cs.head? = some '0' && cs.tail.all Char.isDigit

/-- The bases that numbers may be written in, with what they start with. -/
def basePrefixes : List (List Char × Nat) :=
  [("0x".toList, 16), ("0o".toList, 8), ("0b".toList, 2)]

/-- The non-negative integer after a prefix of a base. -/
def readBased? (cs : List Char) : Option Nat :=
  basePrefixes.findSome? fun (start, base) =>
    (Text.afterStart? start cs).bind fun r => if hasSign r then none else Text.ofDigits? base r

/-- The integer a text stands for, of whatever size. -/
def readInteger? (cs : List Char) : Option Int :=
  let unsigned := if cs.head? = some '+' then cs.tail else cs
  if cs.head? = some '-' then
    match readBased? cs.tail with
    | some n => some (-(n : Int))
    | none =>
      if hasLeadingZero cs then none
      else (Text.ofDigits? 10 cs.tail).map fun n => -(n : Int)
  else if hasSign unsigned then none
  else
    match readBased? unsigned with
    | some n => some n
    | none =>
      if hasLeadingZero cs then none else (Text.ofDigits? 10 unsigned).map fun n => (n : Int)

/-- The number in decimal notation that a text stands for: its digits, the power of ten they are scaled
by, and the text is read to its end. -/
def readDecimal? (cs : List Char) : Option (Nat × Int) := do
  let whole := cs.takeWhile Char.isDigit
  let r := cs.drop whole.length
  let (fraction, r) :=
    match r with
    | '.' :: r => (r.takeWhile Char.isDigit, r.dropWhile Char.isDigit)
    | r => ([], r)
  if whole.isEmpty && fraction.isEmpty then none
  let power ← (
    match r with
    | [] => some (0 : Int)
    | e :: r =>
      if e = 'e' || e = 'E' then
        match r with
        | '-' :: r => (Text.ofDigits? 10 r).map fun n => -(n : Int)
        | '+' :: r => (Text.ofDigits? 10 r).map fun n => (n : Int)
        | r => (Text.ofDigits? 10 r).map fun n => (n : Int)
      else none)
  return (← Text.ofDigits? 10 (whole ++ fraction), power - fraction.length)

/-- A power of ten beyond which every number is too large or rounds to zero. -/
def clampPower (digits : Nat) (power : Int) : Int :=
  if digits = 0 then 0 else max (-100000) (min 100000 power)

/-- The number with a fraction that a text stands for, as it is shown. -/
def readFloat? (cs : List Char) : Option (List Char) := do
  let positive := if cs.head? = some '+' then cs.tail else cs
  if cs.head? = some '+' && hasSign positive then none
  if String.ofList positive ∈ [".inf", ".Inf", ".INF"] then return ".inf".toList
  if String.ofList cs ∈ ["-.inf", "-.Inf", "-.INF"] then return "-.inf".toList
  if String.ofList cs ∈ [".nan", ".NaN", ".NAN"] then return ".nan".toList
  let negative := positive.head? = some '-'
  let (digits, power) ← readDecimal? (if negative then positive.tail else positive)
  let x ← Binary64.ofDecimal? digits (clampPower digits power)
  return (if negative then ['-'] else []) ++ x.text

/-- The least and greatest integers that are kept as numbers. -/
def isKeptInteger (n : Int) : Bool := -Int.pow 2 63 ≤ n && n < Int.pow 2 64

/-- Whether an integer is refused; integers that are larger still are taken as numbers with a fraction. -/
def isRefusedInteger (n : Int) : Bool := !isKeptInteger n && -Int.pow 2 127 ≤ n && n < Int.pow 2 128

/-- The integer that a text stands for, if it is one that is kept; none inside if it is no integer. -/
def readKept? (cs : List Char) : Option (Option Int) :=
  match readInteger? cs with
  | none => some none
  | some n =>
    if isKeptInteger n then some (some n) else if isRefusedInteger n then none else some none

/-- What a plain scalar stands for. -/
def readPlainData? (cs : List Char) : Option Data :=
  if cs.isEmpty || isNull cs then some .null
  else
    match readBool? cs with
    | some b => some (.bool b)
    | none =>
      match readKept? cs with
      | none => none
      | some (some n) => some (.int n)
      | some none =>
        if hasLeadingZero cs then some (.str cs)
        else
          match readFloat? cs with
          | some f => some (.float f)
          | none => some (.str cs)

/-- The tag of a name that every document knows. -/
def coreTag (name : String) : List Char := ("tag:yaml.org,2002:" ++ name).toList

/-- The name of a tag that only the document knows; none inside if it has no name. -/
def localTag? (tag : Option (List Char)) : Option (Option (List Char)) :=
  match tag with
  | some ('!' :: name) => some (if name.isEmpty then none else some name)
  | _ => none

/-- What a scalar stands for that has no tag of the document. -/
def readScalar? (tag : Option (List Char)) (plain : Bool) (cs : List Char) : Option Data :=
  match tag with
  | none => if plain then readPlainData? cs else some (.str cs)
  | some t =>
    if t = coreTag "bool" then (readBool? cs).map .bool
    else if t = coreTag "int" then (readKept? cs).bind fun n => n.map .int
    else if t = coreTag "float" then (readFloat? cs).map .float
    else if t = coreTag "null" then if isNull cs then some .null else none
    else some (.str cs)

/-! ## Collections -/

/-- Whether two numbers with a fraction are equal; a zero may have a sign. -/
def sameFloat (a b : List Char) : Bool :=
  let unsigned (t : List Char) := if t = "-0.0".toList then "0.0".toList else t
  unsigned a = unsigned b

mutual

/-- Whether data are the same. The order of the entries of a mapping does not count. -/
def Data.same : Data → Data → Bool
  | .null, .null => true
  | .bool a, .bool b => a = b
  | .int a, .int b => a = b
  | .float a, .float b => sameFloat a b
  | .str a, .str b => a = b
  | .sequence a, .sequence b => sameAll a b
  | .mapping a, .mapping b => a.length = b.length && allAmong a b
  | .tagged t a, .tagged u b => t = u && Data.same a b
  | _, _ => false
termination_by structural d => d

def sameAll : List Data → List Data → Bool
  | [], [] => true
  | a :: as, b :: bs => Data.same a b && sameAll as bs
  | _, _ => false
termination_by structural ds => ds

/-- Whether each of some entries is found among others. -/
def allAmong : List (Data × Data) → List (Data × Data) → Bool
  | [], _ => true
  | (k, v) :: es, others =>
    others.any (fun e => Data.same k e.1 && Data.same v e.2) && allAmong es others
termination_by structural es => es

end

def distinctKeys : List (Data × Data) → Bool
  | [] => true
  | (k, _) :: es => es.all (fun e => !Data.same k e.1) && distinctKeys es

/-- Puts data under the tag of a document, if it has one. -/
def withTag? (tag : Option (List Char)) (d : Data) : Option Data :=
  match localTag? tag with
  | none => some d
  | some (some name) => some (.tagged name d)
  | some none => none

mutual

def Document.data? : Document → Option Data
  | .scalar tag plain text =>
    match localTag? tag with
    | none => readScalar? tag plain text
    | some _ => (readScalar? none plain text).bind (withTag? tag)
  | .sequence tag items => do withTag? tag (.sequence (← allData? items))
  | .mapping tag entries => do
    let es ← pairData? entries
    if distinctKeys es then withTag? tag (.mapping es) else none
termination_by structural d => d

def allData? : List Document → Option (List Data)
  | [] => some []
  | d :: ds => do return (← d.data?) :: (← allData? ds)
termination_by structural ds => ds

def pairData? : List (Document × Document) → Option (List (Data × Data))
  | [] => some []
  | (k, v) :: es => do return (← k.data?, ← v.data?) :: (← pairData? es)
termination_by structural es => es

end

def read? (cs : List Char) : Option Data := do
  match ← load? cs with
  | some d => d.data?
  | none => return .null

/-! ## Values -/

mutual

def Data.toValue : Data → Value
  | .null => .null
  | .bool b => .bool b
  | .int n => if n < Int.pow 2 63 then .int (Int64.ofInt n) else .str (showInt n)
  | .float t => .str (.ofList t)
  | .str t => .str (.ofList t)
  | .sequence items => .list (allToValues items)
  | .mapping entries => .map (Dict.ofList (pairsToValues entries))
  | .tagged _ d => d.toValue
termination_by structural d => d

def allToValues : List Data → List Value
  | [] => []
  | d :: ds => d.toValue :: allToValues ds
termination_by structural ds => ds

/-- The entries of a map of values; a key that is no text becomes the text it is shown as. -/
def pairsToValues : List (Data × Data) → List (String × Value)
  | [] => []
  | (k, v) :: es =>
    let key :=
      match k with
      | .str t => .ofList t
      | k => k.toValue.text
    (key, v.toValue) :: pairsToValues es
termination_by structural es => es

end

def readValue? (s : String) : Option Value := (read? s.toList).map Data.toValue

end DirectiveRunner.Yaml
