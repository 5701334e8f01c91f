import DirectiveRunner.Text.Digits
import DirectiveRunner.Toml.Data
/-!
# Reading TOML

A document is read line by line: headers choose the table that the entries after them belong to.
Values are texts in one of four kinds of quotes, numbers, truth values, dates, arrays and inline
tables. Whatever is not exactly of this form is refused.
-/

namespace DirectiveRunner.Toml

/-- Passes over spaces and tabs. -/
def skipGaps (cs : List Char) : List Char := cs.dropWhile fun c => c = ' ' || c = '\t'

/-- Whether a character may stand in a comment or text. -/
def isShown (c : Char) : Bool := c = '\t' || (0x20 ≤ c.toNat && c.toNat ≠ 0x7F)

def skipComment (cs : List Char) : List Char :=
  if cs.head? = some '#' then cs.dropWhile isShown else cs

/-- Passes over the end of a line, or stays at the end of the text. -/
def endLine? : List Char → Option (List Char)
  | [] => some []
  | '\n' :: r => some r
  | '\r' :: '\n' :: r => some r
  | _ => none

/-- Passes over gaps, a comment and the end of the line. -/
def endOfLine? (cs : List Char) : Option (List Char) := endLine? (skipComment (skipGaps cs))

def skipLines : Nat → List Char → List Char
  | 0, cs => cs
  | n + 1, cs =>
    match skipComment (skipGaps cs) with
    | '\n' :: r | '\r' :: '\n' :: r => skipLines n r
    | r => r

/-! ## Texts -/

/-- The character of an escape that is a single character. -/
def simpleEscape? (c : Char) : Option Char :=
  [('b', '\x08'), ('t', '\t'), ('n', '\n'), ('f', '\x0C'), ('r', '\r'), ('"', '"'),
    ('\\', '\\')].lookup c

def readEscape? : List Char → Option (Char × List Char)
  | [] => none
  | c :: r =>
    match simpleEscape? c with
    | some d => some (d, r)
    | none =>
      let width := if c = 'u' then 4 else if c = 'U' then 8 else 0
      if width = 0 || (r.take width).length < width then none
      else do
        let n ← Text.ofDigits? 16 (r.take width)
        if n.isValidChar then some (Char.ofNat n, r.drop width) else none

/-- Reads a text of one line after its opening quote. -/
def readLineText? (quote : Char) : Nat → List Char → List Char → Option (List Char × List Char)
  | 0, _, _ => none
  | _ + 1, _, [] => none
  | n + 1, acc, c :: r =>
    if c = quote then some (acc.reverse, r)
    else if quote = '"' && c = '\\' then do
      let (d, r) ← readEscape? r
      readLineText? quote n (d :: acc) r
    else if isShown c then readLineText? quote n (c :: acc) r
    else none

/-- Passes over the blanks and line ends after a backslash that ends a line. -/
def skipFolded : Nat → List Char → List Char
  | 0, cs => cs
  | n + 1, cs =>
    match skipGaps cs with
    | '\n' :: r | '\r' :: '\n' :: r => skipFolded n r
    | r => r

/-- Reads a text of several lines after its opening quotes. -/
def readLinesText? (quote : Char) : Nat → List Char → List Char → Option (List Char × List Char)
  | 0, _, _ => none
  | n + 1, acc, cs =>
    let quotes := (cs.takeWhile (· = quote)).length
    if 3 ≤ quotes then
      if 5 < quotes then none
      else some (acc.reverse ++ List.replicate (quotes - 3) quote, cs.drop quotes)
    else
      match cs with
      | [] => none
      | '\r' :: '\n' :: r => readLinesText? quote n ('\n' :: acc) r
      | c :: r =>
        if c = '\n' then readLinesText? quote n ('\n' :: acc) r
        else if quote = '"' && c = '\\' then
          match endLine? (skipGaps r) with
          | some (d :: r) => readLinesText? quote n acc (skipFolded (r.length + 2) (d :: r))
          | some [] => none
          | none => do
            let (d, r) ← readEscape? r
            readLinesText? quote n (d :: acc) r
        else if isShown c then readLinesText? quote n (c :: acc) r
        else none

def readText? (quote : Char) (cs : List Char) : Option (List Char × List Char) :=
  match cs with
  | a :: b :: r =>
    if a = quote && b = quote then
      let r :=
        match r with
        | '\n' :: r | '\r' :: '\n' :: r => r
        | r => r
      readLinesText? quote (r.length + 1) [] r
    else readLineText? quote (cs.length + 1) [] cs
  | cs => readLineText? quote (cs.length + 1) [] cs

/-! ## Keys -/

def isKeyChar (c : Char) : Bool := c.isAlphanum || c = '-' || c = '_'

def readKeyPart? : List Char → Option (String × List Char)
  | [] => none
  | c :: r =>
    if c = '"' || c = '\'' then
      (readLineText? c (r.length + 1) [] r).map fun (k, r) => (.ofList k, r)
    else
      let k := (c :: r).takeWhile isKeyChar
      if k.isEmpty then none else some (.ofList k, (c :: r).drop k.length)

/-- Reads a key, whose parts are separated by dots. -/
def readKey? : Nat → List Char → Option (List String × List Char)
  | 0, _ => none
  | n + 1, cs => do
    let (k, r) ← readKeyPart? (skipGaps cs)
    match skipGaps r with
    | '.' :: r =>
      let (ks, r) ← readKey? n r
      return (k :: ks, r)
    | r => return ([k], r)

/-! ## Numbers, dates and truth values -/

/-- The digits of a number, in which underscores may stand between digits. -/
def readDigits? (base : Nat) : List Char → Option (List Char)
  | [] => none
  | [c] => if Text.isDigitOf base c then some [c] else none
  | c :: '_' :: r => if Text.isDigitOf base c then (readDigits? base r).map (c :: ·) else none
  | c :: r => if Text.isDigitOf base c then (readDigits? base r).map (c :: ·) else none

/-- The digits of a decimal integer, which has no zeros in front. -/
def readWhole? (cs : List Char) : Option (List Char) := do
  let ds ← readDigits? 10 cs
  if 1 < ds.length && ds.head? = some '0' then none else some ds

def readInt? (cs : List Char) : Option Int :=
  match cs with
  | '0' :: 'x' :: r => ((readDigits? 16 r).bind (Text.ofDigits? 16)).map fun n => (n : Int)
  | '0' :: 'o' :: r => ((readDigits? 8 r).bind (Text.ofDigits? 8)).map fun n => (n : Int)
  | '0' :: 'b' :: r => ((readDigits? 2 r).bind (Text.ofDigits? 2)).map fun n => (n : Int)
  | '-' :: r => ((readWhole? r).bind (Text.ofDigits? 10)).map fun n => -(n : Int)
  | '+' :: r => ((readWhole? r).bind (Text.ofDigits? 10)).map fun n => (n : Int)
  | cs => ((readWhole? cs).bind (Text.ofDigits? 10)).map fun n => (n : Int)

def unsigned (cs : List Char) : List Char :=
  if cs.head? ∈ [some '-', some '+'] then cs.tail else cs

/-- Whether a word denotes a number with a fraction or a power of ten, or one that is not finite. -/
def isFloat (cs : List Char) : Bool :=
  let cs := unsigned cs
  if cs = "inf".toList || cs = "nan".toList then true
  else
    let (mantissa, power) := cs.span fun c => !(c = 'e' || c = 'E')
    let (whole, fraction) := mantissa.span (· ≠ '.')
    (readWhole? whole).isSome &&
      (fraction.isEmpty || (readDigits? 10 fraction.tail).isSome) &&
      (power.isEmpty || (readDigits? 10 (unsigned power.tail)).isSome) &&
      !(fraction.isEmpty && power.isEmpty)

def twoDigits? : List Char → Option (Nat × List Char)
  | a :: b :: r => (Text.ofDigits? 10 [a, b]).map (·, r)
  | _ => none

def daysOf (year month : Nat) : Nat :=
  if month = 2 then
    if year % 4 = 0 && (year % 100 ≠ 0 || year % 400 = 0) then 29 else 28
  else if month ∈ [4, 6, 9, 11] then 30
  else 31

def readDate? (cs : List Char) : Option (List Char) := do
  let year ← Text.ofDigits? 10 (cs.take 4)
  match cs.drop 4 with
  | '-' :: r =>
    let (month, r) ← twoDigits? r
    match r with
    | '-' :: r =>
      let (day, r) ← twoDigits? r
      if 1 ≤ month && month ≤ 12 && 1 ≤ day && day ≤ daysOf year month then some r else none
    | _ => none
  | _ => none

def readTime? (cs : List Char) : Option (List Char) := do
  let (hour, r) ← twoDigits? cs
  match r with
  | ':' :: r =>
    let (minute, r) ← twoDigits? r
    match r with
    | ':' :: r =>
      let (second, r) ← twoDigits? r
      if 24 ≤ hour || 60 ≤ minute || 60 < second then none
      else
        match r with
        | '.' :: r =>
          if (r.head?).any Char.isDigit then some (r.dropWhile Char.isDigit) else none
        | r => some r
    | _ => none
  | _ => none

/-- Reads the offset of a time from that of Greenwich. -/
def readOffset? : List Char → Option (List Char)
  | [] => some []
  | ['Z'] | ['z'] => some []
  | s :: r =>
    if s = '+' || s = '-' then do
      let (hour, r) ← twoDigits? r
      match r with
      | ':' :: r =>
        let (minute, r) ← twoDigits? r
        if hour < 24 && minute < 60 then some r else none
      | _ => none
    else none

def isDateTime (cs : List Char) : Bool :=
  match readDate? cs with
  | some [] => true
  | some (t :: r) =>
    (t = 'T' || t = 't' || t = ' ') && ((readTime? r).bind readOffset?) = some []
  | none => readTime? cs = some []

def isWordChar (c : Char) : Bool := c.isAlphanum || c ∈ "+-_.:".toList

/-- Reads a word; a date and a time may have a space between them. -/
def readWord (cs : List Char) : List Char × List Char :=
  let word := cs.takeWhile isWordChar
  let r := cs.drop word.length
  match readDate? word, r with
  | some [], ' ' :: d :: _ =>
    if d.isDigit then
      let more := r.tail.takeWhile isWordChar
      (word ++ ' ' :: more, r.drop (more.length + 1))
    else (word, r)
  | _, _ => (word, r)

def ofWord? (cs : List Char) : Option Data :=
  if cs = "true".toList then some (.bool true)
  else if cs = "false".toList then some (.bool false)
  else
    match readInt? cs with
    | some n => some (.int n)
    | none => if isFloat cs || isDateTime cs then some .other else none

/-! ## Values -/

mutual

def readValue? : Nat → List Char → Option (Data × List Char)
  | 0, _ => none
  | _ + 1, [] => none
  | n + 1, c :: r =>
    if c = '"' || c = '\'' then (readText? c r).map fun (s, r) => (.str (.ofList s), r)
    else if c = '[' then (readArray? n r).map fun (items, r) => (.array false items, r)
    else if c = '\x7b' then
      match skipGaps r with
      | '\x7d' :: r => some (.table .inline [], r)
      | r => (readInline? n [] r).map fun (es, r) => (.table .inline es, r)
    else
      let (word, rest) := readWord (c :: r)
      (ofWord? word).map (·, rest)

/-- Reads the elements of an array after its opening bracket or a comma. -/
def readArray? : Nat → List Char → Option (List Data × List Char)
  | 0, _ => none
  | n + 1, cs =>
    match skipLines (cs.length + 1) cs with
    | ']' :: r => some ([], r)
    | cs => do
      let (d, r) ← readValue? n cs
      match skipLines (r.length + 1) r with
      | ']' :: r => return ([d], r)
      | ',' :: r =>
        let (ds, r) ← readArray? n r
        return (d :: ds, r)
      | _ => none

/-- Reads the entries of an inline table after those in `es`. -/
def readInline? : Nat → Entries → List Char → Option (Entries × List Char)
  | 0, _, _ => none
  | n + 1, es, cs => do
    let (key, r) ← readKey? (cs.length + 1) cs
    match r with
    | '=' :: r =>
      let (d, r) ← readValue? n (skipGaps r)
      let (_, es) ← addEntry key.dropLast (key.getLastD "") d .inline es
      match skipGaps r with
      | '\x7d' :: r => return (es, r)
      | ',' :: r => readInline? n es r
      | _ => none
    | _ => none

end

/-! ## Documents -/

/-- Reads the header of a table or of an element of an array of tables, after its brackets: the key. -/
def readHeader? (close : List Char) (cs : List Char) : Option (List String × List Char) := do
  let (key, r) ← readKey? (cs.length + 1) cs
  if close.isPrefixOf r then return (key, ← endOfLine? (r.drop close.length)) else none

/-- Reads the lines of a document, where `table` leads to the table that entries belong to. -/
def readLines? : Nat → List String → Entries → List Char → Option Entries
  | 0, _, _, _ => none
  | n + 1, table, root, cs =>
    match skipLines (cs.length + 1) cs with
    | [] => some root
    -- each header is followed from the root, and the entries after it from the table it names
    | '[' :: '[' :: r => do
      let (key, r) ← readHeader? [']', ']'] r
      let (_, root) ← descend false (openElement (key.getLastD "")) key.dropLast .opened root
      readLines? n key root r
    | '[' :: r => do
      let (key, r) ← readHeader? [']'] r
      let (_, root) ← descend false (openTable (key.getLastD "")) key.dropLast .opened root
      readLines? n key root r
    | cs => do
      let (key, r) ← readKey? (cs.length + 1) cs
      match r with
      | '=' :: r =>
        let (d, r) ← readValue? (2 * r.length + 2) (skipGaps r)
        let (_, root) ←
          descend false (addEntry key.dropLast (key.getLastD "") d) table .opened root
        readLines? n table root (← endOfLine? r)
      | _ => none

/-- The entries of a document, if it is one. -/
def read? (s : String) : Option Entries :=
  let cs := s.toList
  let cs := if cs.head? = some '\uFEFF' then cs.tail else cs
  readLines? (cs.length + 2) [] [] cs

end DirectiveRunner.Toml
