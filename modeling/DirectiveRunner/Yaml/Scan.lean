import DirectiveRunner.Yaml.Scalar
/-!
# Tokens of YAML

A YAML text is cut into tokens. In block style the indentation opens and closes collections, so the
scanner keeps the columns of the open ones. Whether a scalar is a key of a mapping is only known when
the `:` after it is read: the scanner remembers, for each nesting of flow collections, where a key
could have started, and inserts the tokens of the key there.
-/

namespace DirectiveRunner.Yaml

inductive Token where
  /-- The version of a `%YAML` line. -/
  | version (major minor : Nat)
  /-- The handle and prefix of a `%TAG` line. -/
  | tagAlias (handle start : List Char)
  | documentStart | documentEnd
  | blockSequenceStart | blockMappingStart | blockEnd
  | flowSequenceStart | flowSequenceEnd | flowMappingStart | flowMappingEnd
  | blockEntry | flowEntry | key | value
  /-- A reference to an anchor. -/
  | alias (name : List Char)
  /-- A name for the node that follows. -/
  | anchor (name : List Char)
  | tag (handle suffix : List Char)
  | scalar (plain : Bool) (text : List Char)
deriving DecidableEq, Repr

/-- A place where a key could have started. -/
structure KeyStart where
  /-- Whether it has to turn out to be a key. -/
  required : Bool
  /-- How many tokens come before it. -/
  token : Nat
  /-- How many characters come before it. -/
  index : Nat
  line : Nat
  column : Nat
deriving DecidableEq, Repr

structure Scanner where
  place : Place
  /-- The tokens so far, the latest first. -/
  tokens : List Token := []
  /-- The column of the innermost block collection, or -1 outside all of them. -/
  indent : Int := -1
  /-- The columns of the block collections around it. -/
  outer : List Int := []
  /-- Where a key could have started, in the innermost flow collection first; there is one more entry
  than there are open flow collections. -/
  keys : List (Option KeyStart) := [none]
  /-- Whether a key may start here. -/
  keyAllowed : Bool := true
deriving DecidableEq, Repr

namespace Scanner

/-- Whether a flow collection is open. -/
def inFlow (s : Scanner) : Bool := 1 < s.keys.length

def column (s : Scanner) : Int := s.place.column

def emit (s : Scanner) (t : Token) : Scanner := { s with tokens := t :: s.tokens }

/-- Adds a token before which there are `n` others. -/
def insertAt (s : Scanner) (n : Nat) (t : Token) : Scanner :=
  { s with tokens := s.tokens.insertIdx (s.tokens.length - n) t }

def moveTo (s : Scanner) (p : Place) : Scanner := { s with place := p }

def allow (s : Scanner) (b : Bool) : Scanner := { s with keyAllowed := b }

/-- Gives up the key that could have started; none if it had to be one. -/
def dropKey? (s : Scanner) : Option Scanner :=
  match s.keys with
  | some k :: ks => if k.required then none else some { s with keys := none :: ks }
  | _ => some s

/-- Remembers that a key could start here. -/
def saveKey? (s : Scanner) : Option Scanner :=
  if s.keyAllowed then do
    let s ← s.dropKey?
    let k : KeyStart :=
      { required := !s.inFlow && s.indent = s.column, token := s.tokens.length,
        index := s.place.index, line := s.place.line, column := s.place.column }
    return { s with keys := some k :: s.keys.tail }
  else some s

/-- Opens a block collection at a column if that lies further in, with its token after `n` others. -/
def openBlock (s : Scanner) (column : Int) (n : Nat) (t : Token) : Scanner :=
  if !s.inFlow && s.indent < column then
    { s.insertAt n t with indent := column, outer := s.indent :: s.outer }
  else s

/-- Closes the innermost `n` or fewer block collections that lie further in than a column. -/
def closeBlocksUpTo (column : Int) : Nat → Scanner → Scanner
  | 0, s => s
  | n + 1, s =>
    if column < s.indent then
      closeBlocksUpTo column n
        { s.emit .blockEnd with indent := s.outer.headD (-1), outer := s.outer.tail }
    else s

/-- Closes the block collections that lie further in than a column. -/
def closeBlocks (s : Scanner) (column : Int) : Scanner :=
  if s.inFlow then s else closeBlocksUpTo column (s.outer.length + 1) s

/-- Passes over gaps, comments and line ends up to the next token. A tab may not stand where a key
could start in a block. -/
def toNextToken : Nat → Scanner → Scanner
  | 0, s => s
  | n + 1, s =>
    let p := s.place
    let p := if p.column = 0 && p.next? = some '\uFEFF' then p.skip else p
    let p := (p.takeWhile fun c => c = ' ' || ((s.inFlow || !s.keyAllowed) && c = '\t')).2
    let p := p.skipComment
    if p.next?.any isBreak then
      toNextToken n { s with place := p.readBreak.2, keyAllowed := s.keyAllowed || !s.inFlow }
    else s.moveTo p

/-! ## Directives, anchors and tags -/

/-- The place after the rest of a line that may only hold a comment. -/
def endOfLine? (p : Place) : Option Place :=
  let p := p.skipGaps.skipComment
  if isLineEnd p.next? then some p.readBreak.2 else none

/-- Reads a number of at most nine digits. -/
def readVersionNumber? (p : Place) : Option (Nat × Place) := do
  let (ds, p) := p.takeWhile Char.isDigit
  if 9 < ds.length then none else return (← Text.ofDigits? 10 ds, p)

/-- Reads the escapes `%XX` that come next as bytes. -/
def readUriBytes : List Char → List Nat × List Char
  | '%' :: a :: b :: r =>
    match Text.ofDigits? 16 [a, b] with
    | some n =>
      let (ns, rest) := readUriBytes r
      (n :: ns, rest)
    | none => ([], '%' :: a :: b :: r)
  | r => ([], r)

/-- Whether a character may be part of a tag; brackets and commas only in prefixes and in tags between
angle brackets. -/
def isUriChar (whole : Bool) (c : Char) : Bool :=
  isNameChar c || c ∈ ";/?:@&=+$.!~*'()".toList || (whole && c ∈ ",[]".toList)

/-- Reads the characters of a tag, with escapes for the bytes of characters. -/
def readUri? (whole : Bool) : Nat → List Char → Place → Option (List Char × Place)
  | 0, _, _ => none
  | n + 1, text, p =>
    match p.next? with
    | some '%' => do
      let (bytes, rest) := readUriBytes p.rest
      let s ← Text.Utf8.decode? ⟨(bytes.map UInt8.ofNat).toArray⟩
      if bytes.isEmpty then none
      else readUri? whole n (text ++ s.toList) (p.skip (p.rest.length - rest.length))
    | some c => if isUriChar whole c then readUri? whole n (text ++ [c]) p.skip else some (text, p)
    | none => some (text, p)

/-- Reads a tag that must not be empty. -/
def readWholeUri? (p : Place) : Option (List Char × Place) := do
  let (text, p) ← readUri? true (p.rest.length + 1) [] p
  if text.isEmpty then none else return (text, p)

/-- Reads the handle of a tag; in a directive it has to be a proper one. -/
def readHandle? (directive : Bool) (p : Place) : Option (List Char × Place) :=
  if p.next? ≠ some '!' then none
  else
    let (name, p) := p.skip.takeWhile isNameChar
    if p.next? = some '!' then some (['!'] ++ name ++ ['!'], p.skip)
    else if directive && !name.isEmpty then none
    else some ('!' :: name, p)

/-- Reads a line that starts with `%`. -/
def readDirective? (p : Place) : Option (Token × Place) := do
  let (name, p) := p.skip.takeWhile isNameChar
  if name.isEmpty || !isEdge p.next? then none
  else if name = "YAML".toList then do
    let (major, p) ← readVersionNumber? p.skipGaps
    if p.next? ≠ some '.' then none
    let (minor, p) ← readVersionNumber? p.skip
    return (.version major minor, ← endOfLine? p)
  else if name = "TAG".toList then do
    let (handle, p) ← readHandle? true p.skipGaps
    if !p.next?.any isGap then none
    let (start, p) ← readWholeUri? p.skipGaps
    if !isEdge p.next? then none
    return (.tagAlias handle start, ← endOfLine? p)
  else none

/-- Reads the name of an anchor or alias after its mark. -/
def readName? (p : Place) : Option (List Char × Place) :=
  let (name, p) := p.skip.takeWhile isNameChar
  let ends := isEdge p.next? || p.next?.any fun c =>
    c ∈ "?:,]\x7d%@".toList || c.toNat = 0x60
  if name.isEmpty || !ends then none else some (name, p)

def readTag? (inFlow : Bool) (p : Place) : Option (Token × Place) := do
  let (t, p) ← (
    if p.ahead? 1 = some '<' then do
      let (suffix, p) ← readWholeUri? (p.skip 2)
      if p.next? = some '>' then some (Token.tag [] suffix, p.skip) else none
    else do
      let (handle, q) ← readHandle? false p
      if 1 < handle.length && handle.getLast? = some '!' then
        let (suffix, q) ← readUri? false (q.rest.length + 1) [] q
        if suffix.isEmpty then none else some (.tag handle suffix, q)
      else
        let (suffix, q) ← readUri? false (q.rest.length + 1) handle.tail q
        some (if suffix.isEmpty then .tag [] ['!'] else .tag ['!'] suffix, q))
  if isEdge p.next? || (inFlow && p.next? = some ',') then some (t, p) else none

/-! ## The tokens -/

/-- Reads a mark of one character. -/
def mark (s : Scanner) (t : Token) : Scanner := (s.moveTo s.place.skip).emit t

def leaveFlow (s : Scanner) : Scanner :=
  if s.inFlow then { s with keys := s.keys.tail } else s

/-- Reads the `-` of an entry. -/
def blockEntry? (s : Scanner) : Option Scanner := do
  if !s.inFlow && !s.keyAllowed then none
  let s := s.openBlock s.column s.tokens.length .blockSequenceStart
  return (((← s.dropKey?).allow true).mark .blockEntry)

/-- Reads the `?` of a key. -/
def explicitKey? (s : Scanner) : Option Scanner := do
  if !s.inFlow && !s.keyAllowed then none
  let s := s.openBlock s.column s.tokens.length .blockMappingStart
  let s ← s.dropKey?
  return ((s.allow !s.inFlow).mark .key)

/-- Whether a key that could have started is still one here: none if it had to be one but is not. -/
def keyHolds? (s : Scanner) (k : KeyStart) : Option Bool :=
  -- a key that is not marked as one is written on one line, in at most 1024 characters
  if k.line < s.place.line || k.index + 1024 < s.place.index then
    if k.required then none else some false
  else some true

/-- Reads the `:` of a value, which makes a key of what comes before it if that could be one. -/
def value? (s : Scanner) : Option Scanner :=
  let plain (s : Scanner) : Option Scanner := do
    if !s.inFlow && !s.keyAllowed then none
    let s := s.openBlock s.column s.tokens.length .blockMappingStart
    return ((s.allow !s.inFlow).mark .value)
  match s.keys with
  | some k :: ks => do
    let s' := { s with keys := none :: ks }
    if ← s.keyHolds? k then
      let s' := s'.insertAt k.token .key
      let s' := s'.openBlock k.column k.token .blockMappingStart
      return ((s'.allow false).mark .value)
    else plain s'
  | _ => plain s

/-- Adds the token of something that can be a key, which was read up to a place. -/
def node (s : Scanner) (t : Token) (p : Place) : Scanner := ((s.moveTo p).allow false).emit t

def plainScalar? (s : Scanner) : Option Scanner := do
  let s ← s.saveKey?
  let (text, space, p) ←
    readPlain? s.inFlow (s.indent + 1).toNat (s.place.rest.length + 1) [] {} s.place
  return (s.node (.scalar true text) p).allow space.first.isSome

/-- Whether a plain scalar may start with what comes next. -/
def startsPlain (s : Scanner) : Bool :=
  match s.place.next? with
  | none => false
  | some c =>
    let second := s.place.ahead? 1
    let indicator :=
      c ∈ "-?:,[]\x7b\x7d#&*!|>'\"%@".toList || c.toNat = 0x60
    !(isGap c || isBreak c || indicator) || (c = '-' && !second.any isGap) ||
      (!s.inFlow && (c = '?' || c = ':') && !isEdge second)

/-- Reads the token that starts here. -/
def fetch? (s : Scanner) : Option Scanner := do
  let s := s.closeBlocks s.column
  let p := s.place
  match p.next? with
  | none => none
  | some c =>
    let single (t : Token) (allow : Bool) : Option Scanner := do
      return ((← s.dropKey?).allow allow).mark t
    let opened (t : Token) : Option Scanner := do
      let s ← s.saveKey?
      return ({ s with keys := none :: s.keys, keyAllowed := true }).mark t
    let closed (t : Token) : Option Scanner := do
      return ((← s.dropKey?).leaveFlow.allow false).mark t
    let edge := isEdge (p.ahead? 1)
    -- the order counts: a mark of a document also looks like the start of a plain scalar
    if c = '%' && p.column = 0 then do
      let s ← (s.closeBlocks (-1)).dropKey?
      let (t, p) ← readDirective? p
      return s.node t p
    else if p.atDocumentMark then do
      let s ← (s.closeBlocks (-1)).dropKey?
      return s.node (if c = '-' then .documentStart else .documentEnd) (p.skip 3)
    else if c = '[' then opened .flowSequenceStart
    else if c = '\x7b' then opened .flowMappingStart
    else if c = ']' then closed .flowSequenceEnd
    else if c = '\x7d' then closed .flowMappingEnd
    else if c = ',' then single .flowEntry true
    else if c = '-' && edge then s.blockEntry?
    else if c = '?' && (s.inFlow || edge) then s.explicitKey?
    else if c = ':' && (s.inFlow || edge) then s.value?
    else if c = '*' || c = '&' then do
      let s ← s.saveKey?
      let (name, p) ← readName? p
      return s.node (if c = '*' then .alias name else .anchor name) p
    else if c = '!' then do
      let s ← s.saveKey?
      let (t, p) ← readTag? s.inFlow p
      return s.node t p
    else if !s.inFlow && (c = '|' || c = '>') then do
      let s ← s.dropKey?
      let (text, p) ← readBlock? (c = '|') s.indent p.skip
      return (s.node (.scalar false text) p).allow true
    else if c = '\'' || c = '"' then do
      let s ← s.saveKey?
      let (text, p) ← readYamlQuoted? (c = '\'') (p.rest.length + 1) [] p.skip
      return s.node (.scalar false text) p
    else if s.startsPlain then s.plainScalar?
    else none

def run? : Nat → Scanner → Option Scanner
  | 0, _ => none
  | n + 1, s => do
    let s := toNextToken (s.place.rest.length + 1) s
    if s.place.rest.isEmpty then (s.closeBlocks (-1)).dropKey?
    else run? n (← s.fetch?)

end Scanner

/-- The tokens of a text, if it can be cut into tokens. -/
def tokens? (cs : List Char) : Option (List Token) := do
  let cs := if cs.head? = some '\uFEFF' then cs.tail else cs
  if !cs.all isAllowed then none
  let s ← Scanner.run? (cs.length + 2) { place := { rest := cs } }
  return s.tokens.reverse

end DirectiveRunner.Yaml
