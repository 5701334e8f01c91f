import DirectiveRunner.Yaml.Scan
/-!
# Documents of YAML

The tokens of a YAML text are put together to the nodes of its one document. Anchors are numbered by
how many names have been used before, so a name that is used anew may share its number with a later
one; what an alias stands for is only looked up when the whole document is known.
-/

namespace DirectiveRunner.Yaml

/-- A node as it is written. -/
inductive Node where
  /-- A scalar with its tag; plain ones may stand for numbers and the like. -/
  | scalar (tag : Option (List Char)) (plain : Bool) (text : List Char)
  | sequence (tag : Option (List Char)) (items : List Node)
  | mapping (tag : Option (List Char)) (entries : List (Node × Node))
  /-- A reference to the anchor of a number. -/
  | alias (anchor : Nat)
deriving Repr, Inhabited

/-- The node of a place where nothing is written. -/
def Node.missing : Node := .scalar none true []

/-- The state of the parser. -/
structure Parser where
  tokens : List Token
  /-- The prefixes of the tag handles. -/
  handles : List (List Char × List Char) := []
  /-- The numbers of the anchor names. -/
  names : List (List Char × Nat) := []
  /-- For each number the node it stands for, by the order in which the nodes start; the latest
  first. -/
  starts : List (Nat × Nat) := []
  /-- How many nodes with anchors have started. -/
  anchored : Nat := 0
  /-- The nodes with anchors that are complete. -/
  complete : List (Nat × Node) := []
  /-- How many events the nodes so far consist of. -/
  events : Nat := 0
deriving Repr

abbrev Step := StateT Parser Option

namespace Parser

def peek : Step (Option Token) := fun p => some (p.tokens.head?, p)

def drop : Step Unit := fun p => some ((), { p with tokens := p.tokens.tail })

/-- Passes over a token if it comes next. -/
def eat (t : Token) : Step Bool := fun p =>
  if p.tokens.head? = some t then some (true, { p with tokens := p.tokens.tail }) else some (false, p)

/-- Passes over a token that has to come next. -/
def need (t : Token) : Step Unit := do
  if !(← eat t) then failure

/-- Whether one of some tokens comes next; the end of the text counts as such. -/
def nextIn (ts : List Token) : Step Bool := do
  match ← peek with
  | some t => return t ∈ ts
  | none => return true

def count (n : Nat) : Step Unit := fun p => some ((), { p with events := p.events + n })

/-- The place of a node where nothing is written. -/
def missing : Step Node := do
  count 1
  return .missing

/-- Gives a name to the node that starts, and gives the number of the node. -/
def anchorStart (name : List Char) : Step Nat := fun p =>
  let id := p.names.length
  let names := p.names.filter (·.1 ≠ name) ++ [(name, id)]
  some (p.anchored,
    { p with names := names, starts := (id, p.anchored) :: p.starts, anchored := p.anchored + 1 })

/-- Remembers a node with an anchor. -/
def anchorEnd (serial : Option Nat) (n : Node) : Step Node := fun p =>
  match serial with
  | some s => some (n, { p with complete := (s, n) :: p.complete })
  | none => some (n, p)

/-- The number of an anchor name. -/
def anchorOf (name : List Char) : Step Nat := do
  match (← get).names.lookup name with
  | some id => return id
  | none => failure

/-- The tag of a handle and a suffix. -/
def wholeTag (handle suffix : List Char) : Step (List Char) := do
  if handle.isEmpty then return suffix
  match (← get).handles.lookup handle with
  | some start => return start ++ suffix
  | none => failure

/-- Reads the anchor and the tag of a node, in either order. -/
def properties : Step (Option (List Char) × Option (List Char)) := do
  let anchor? : Step (Option (List Char)) := do
    match ← peek with
    | some (.anchor name) => drop; return some name
    | _ => return none
  let tag? : Step (Option (List Char)) := do
    match ← peek with
    | some (.tag handle suffix) =>
      drop
      return some (← wholeTag handle suffix)
    | _ => return none
  match ← anchor? with
  | some name => return (some name, ← tag?)
  | none =>
    let tag ← tag?
    return (← anchor?, tag)

mutual

/-- Reads a node; block collections only in a `block`, and entries without indentation of their own
only where they are allowed. -/
def node : Nat → Bool → Bool → Step Node
  | 0, _, _ => failure
  | n + 1, block, indentless => do
    match ← peek with
    | some (.alias name) =>
      drop
      count 1
      return .alias (← anchorOf name)
    | _ => pure ()
    let (name, tag) ← properties
    let serial ← name.mapM anchorStart
    let t ← peek
    match t with
    | some (.scalar plain text) =>
      drop
      count 1
      anchorEnd serial (.scalar (if tag = some ['!'] then none else tag) plain text)
    | _ =>
      -- a collection counts for two events, its start and its end
      if indentless && t = some .blockEntry then
        count 2
        anchorEnd serial (.sequence tag (← indentlessEntries n))
      else if t = some .flowSequenceStart then
        drop
        count 2
        anchorEnd serial (.sequence tag (← flowEntries n true))
      else if t = some .flowMappingStart then
        drop
        count 2
        anchorEnd serial (.mapping tag (← flowPairs n true))
      else if block && t = some .blockSequenceStart then
        drop
        count 2
        anchorEnd serial (.sequence tag (← blockEntries n))
      else if block && t = some .blockMappingStart then
        drop
        count 2
        anchorEnd serial (.mapping tag (← blockPairs n))
      -- an anchor or a tag can stand alone, and then nothing is written for the node
      else if name.isSome || tag.isSome then
        count 1
        anchorEnd serial (.scalar tag true [])
      else failure

def blockEntries : Nat → Step (List Node)
  | 0 => failure
  | n + 1 => do
    if ← eat .blockEntry then
      let e ← if ← nextIn [.blockEntry, .blockEnd] then missing else node n true false
      return e :: (← blockEntries n)
    else
      need .blockEnd
      return []

/-- Reads the entries of a sequence that has the indentation of the mapping around it. -/
def indentlessEntries : Nat → Step (List Node)
  | 0 => failure
  | n + 1 => do
    if ← eat .blockEntry then
      let e ←
        if ← nextIn [.blockEntry, .key, .value, .blockEnd] then missing else node n true false
      return e :: (← indentlessEntries n)
    else return []

def blockPairs : Nat → Step (List (Node × Node))
  | 0 => failure
  | n + 1 => do
    match ← peek with
    | some .blockEnd =>
      drop
      return []
    | some .key =>
      drop
      let k ← if ← nextIn [.key, .value, .blockEnd] then missing else node n true true
      let v ←
        if ← eat .value then
          if ← nextIn [.key, .value, .blockEnd] then missing else node n true true
        else missing
      return (k, v) :: (← blockPairs n)
    | _ => failure

/-- Reads the entries of a flow sequence; an entry may be a single pair. -/
def flowEntries : Nat → Bool → Step (List Node)
  | 0, _ => failure
  | n + 1, first => do
    if ← eat .flowSequenceEnd then return []
    if !first then need .flowEntry
    if ← eat .flowSequenceEnd then return []
    let e ←
      if ← eat .key then do
        count 2
        let k ←
          if ← nextIn [.value, .flowEntry, .flowSequenceEnd] then do
            drop
            missing
          else node n false false
        let v ←
          if ← eat .value then
            if ← nextIn [.flowEntry, .flowSequenceEnd] then missing else node n false false
          else missing
        pure (Node.mapping none [(k, v)])
      else node n false false
    return e :: (← flowEntries n false)

def flowPairs : Nat → Bool → Step (List (Node × Node))
  | 0, _ => failure
  | n + 1, first => do
    if ← eat .flowMappingEnd then return []
    if !first then need .flowEntry
    if ← eat .flowMappingEnd then return []
    if ← eat .key then
      let k ←
        if ← nextIn [.value, .flowEntry, .flowMappingEnd] then missing else node n false false
      let v ←
        if ← eat .value then
          if ← nextIn [.flowEntry, .flowMappingEnd] then missing else node n false false
        else missing
      return (k, v) :: (← flowPairs n false)
    else
      let k ← node n false false
      let v ← missing
      return (k, v) :: (← flowPairs n false)

end

/-- Reads the lines before a document that start with `%`; `version` tells whether there was one with
a version. -/
def directives : Nat → Bool → Step Bool
  | 0, _ => failure
  | n + 1, version => do
    match ← peek with
    | some (.version major minor) =>
      if version || major ≠ 1 || (minor ≠ 1 && minor ≠ 2) then failure
      drop
      let _ ← directives n true
      return true
    | some (.tagAlias handle start) =>
      if ((← get).handles.lookup handle).isSome then failure
      drop
      modify fun p => { p with handles := p.handles ++ [(handle, start)] }
      let _ ← directives n version
      return true
    | _ => return version

def knownHandles : List (List Char × List Char) :=
  [(['!'], ['!']), (['!', '!'], "tag:yaml.org,2002:".toList)]

/-- Passes over marks of the end of a document. -/
def dropEnds : List Token → List Token
  | .documentEnd :: ts => dropEnds ts
  | ts => ts

/-- Reads the one document of a text; none inside if there is no document. -/
def document : Step (Option Node) := do
  if (← get).tokens.isEmpty then return none
  let n := 4 * (← get).tokens.length + 8
  let any ← directives n false
  modify fun p => { p with handles := p.handles ++ knownHandles }
  let root ← (do
    if ← eat .documentStart then
      match ← peek with
      | none | some .documentEnd | some .documentStart | some (.version ..)
      | some (.tagAlias ..) => missing
      | _ => node n true false
    else if any then failure
    else node n true false)
  modify fun p => { p with tokens := dropEnds p.tokens }
  if (← get).tokens.isEmpty then return some root else failure

end Parser

end DirectiveRunner.Yaml
