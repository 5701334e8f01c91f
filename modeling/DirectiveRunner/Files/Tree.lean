import DirectiveRunner.Dict
import DirectiveRunner.Path
import DirectiveRunner.Text.Utf8
import DirectiveRunner.Files.Failure
/-!
# File trees

A file tree says what is found at each *location*, the list of names that leads from the root to it.
Paths are walked from the root segment by segment (`locate`): every segment, also an empty one or `.`,
needs a directory to stand in, and `..` leads to the directory above. A relative path is walked after
the segments of the current directory (`route`). There are no symbolic links, so a location has one
canonical path, and names are texts: those of a file system that are not UTF-8 are left out. What is
proved of all file trees is said with these two restrictions.

Reading never changes the tree, and writing a file changes nothing but what is found at its location
(`node?_put_of_ne`).
-/

namespace DirectiveRunner

/-- What is found at a location. -/
inductive FileNode where
  | file (bytes : ByteArray)
  | directory

instance : DecidableEq FileNode
  | .file a, .file b =>
    match ByteArray.instDecidableEq a b with
    | isTrue h => isTrue (by rw [h])
    | isFalse h => isFalse fun same => h (FileNode.file.inj same)
  | .directory, .directory => isTrue rfl
  | .file _, .directory => isFalse nofun
  | .directory, .file _ => isFalse nofun

/-- The names that lead from the root to a place. -/
abbrev Location := List String

/-- The files and directories below the root, as they are seen from a current directory. -/
structure FileTree where
  /-- What is found at each location below the root, in the order of the locations. -/
  nodes : List (Location × FileNode)
  /-- The directory that relative paths are taken from. -/
  current : Location := []

namespace FileTree

/-- The tree with nothing but the root. -/
def empty : FileTree := { nodes := [] }

instance : Inhabited FileTree := ⟨empty⟩

/-- What is found at a location; the root is always a directory. -/
def node? (t : FileTree) (l : Location) : Option FileNode :=
  if l.isEmpty then some .directory else Dict.lookup l t.nodes

def put (t : FileTree) (l : Location) (n : FileNode) : FileTree :=
  { t with nodes := Dict.insert l n t.nodes }

def pathOf (l : Location) : Path := Path.ofComponents (.root :: l.map .name)

/-- The path of the current directory. -/
def base (t : FileTree) : Path := pathOf t.current

/-- The segments that a path is walked by from the root. -/
def route (t : FileTree) (p : Path) : List (List Char) :=
  if p.isAbsolute then p.segments else t.base.segments ++ p.segments

/-- The greatest number of bytes in a name. -/
def nameLimit : Nat := 255

/-- Takes one segment of a path from a location. -/
def step (t : FileTree) (l : Location) (segment : List Char) : Except FileFailure Location :=
  match t.node? l with
  | none => .error .notFound
  | some (.file _) => .error .notDirectory
  | some .directory =>
    match segment with
    | [] | ['.'] => .ok l
    | ['.', '.'] => .ok l.dropLast
    | name =>
      if nameLimit < Text.byteLength name then .error .nameTooLong else .ok (l ++ [.ofList name])

/-- The location a path leads to; all but its last segment must be directories, and the last one need
not exist. -/
def locate (t : FileTree) (p : Path) : Except FileFailure Location :=
  if p.chars.isEmpty then .error .notFound
  else if '\x00' ∈ p.chars then .error .nulInPath
  else (t.route p).foldlM t.step []

def find (t : FileTree) (p : Path) : Except FileFailure (Location × FileNode) := do
  let l ← t.locate p
  match t.node? l with
  | none => .error .notFound
  | some n => .ok (l, n)

def pathExists (t : FileTree) (p : Path) : Bool := (t.find p).toOption.isSome

def isFile (t : FileTree) (p : Path) : Bool :=
  match t.find p with
  | .ok (_, .file _) => true
  | _ => false

def isDirectory (t : FileTree) (p : Path) : Bool :=
  match t.find p with
  | .ok (_, .directory) => true
  | _ => false

/-- The one path of what is found at a path, without `.`, `..` and needless slashes. -/
def canonical (t : FileTree) (p : Path) : Except FileFailure Path :=
  (t.find p).map fun found => pathOf found.1

def read (t : FileTree) (p : Path) : Except FileFailure ByteArray := do
  match ← t.find p with
  | (_, .file bytes) => .ok bytes
  | (_, .directory) => .error .isDirectory

def readText (t : FileTree) (p : Path) : Except FileFailure String := do
  match Text.Utf8.decode? (← t.read p) with
  | some s => .ok s
  | none => .error .notText

/-- The location a file can be written at: its directory exists, and there is no directory in its
place. -/
def writable (t : FileTree) (p : Path) : Except FileFailure Location := do
  if p.chars.getLast? = some '/' then
    let _ ← (t.route p).dropLast.foldlM t.step []
    .error .isDirectory
  let l ← t.locate p
  match t.node? l with
  | some .directory => .error .isDirectory
  | some (.file _) => .ok l
  | none => if t.node? l.dropLast = some .directory then .ok l else .error .notFound

def write (t : FileTree) (p : Path) (bytes : ByteArray) : Except FileFailure FileTree := do
  return t.put (← t.writable p) (.file bytes)

/-- The tree with bytes added at the end of a file, which is made if it does not exist. -/
def append (t : FileTree) (p : Path) (bytes : ByteArray) : Except FileFailure FileTree := do
  let l ← t.writable p
  let old :=
    match t.node? l with
    | some (.file b) => b
    | _ => .empty
  return t.put l (.file (old ++ bytes))

/-- The tree with a directory at a location and at every location above it, where there is nothing. -/
def makeDirectoriesAt (t : FileTree) : Location → Location → FileTree
  | _, [] => t
  | above, name :: names =>
    let l := above ++ [name]
    let t' := if (t.node? l).isSome then t else t.put l .directory
    t'.makeDirectoriesAt l names

/-- The tree with the directory a path names, and all directories above it. -/
def makeDirectories (t : FileTree) (p : Path) : FileTree :=
  t.makeDirectoriesAt [] (p.components.foldl (fun l c =>
    match c with
    | .name n => l ++ [n]
    | .parent => l.dropLast
    | _ => l) (if p.isAbsolute then [] else t.current))

/-- The tree without a file, or without a directory and all below it. -/
def remove (t : FileTree) (p : Path) : Except FileFailure FileTree := do
  let (l, _) ← t.find p
  return { t with nodes := t.nodes.filter fun e => !l.isPrefixOf e.1 }

/-- The locations below a directory in order, with what is found there; only those right in it unless
`deep`. -/
def below (t : FileTree) (l : Location) (deep : Bool) : List (Location × FileNode) :=
  t.nodes.filter fun e =>
    l.isPrefixOf e.1 && (if deep then l.length < e.1.length else e.1.length = l.length + 1)

theorem node?_put_of_ne {l l' : Location} (h : l' ≠ l) (t : FileTree) (n : FileNode) :
    (t.put l n).node? l' = t.node? l' := by
  simp [node?, put, Dict.lookup_insert_of_ne h]

/-- A node that was put is found, except at the root. -/
theorem node?_put_self {l : Location} (h : l ≠ []) (t : FileTree) (n : FileNode) :
    (t.put l n).node? l = some n := by
  simp [node?, put, h]

end FileTree

end DirectiveRunner
