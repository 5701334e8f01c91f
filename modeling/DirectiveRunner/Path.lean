import DirectiveRunner.Text.Pieces
/-!
# Paths

A path is a text, so paths that are not UTF-8 are left out. It is kept as it was written; what it names
is given by its `components`. Two spellings such as `/work//a` and `/work/./a` have the same components
and count as the same path wherever paths are compared, while `..` is a component of its own: it can
only be resolved on a file tree.
-/

namespace DirectiveRunner

/-- A path as it was written. -/
structure Path where
  text : String
deriving DecidableEq, Repr, Inhabited

namespace Path

/-- One step of a path. -/
inductive Component where
  /-- The leading slash. -/
  | root
  /-- A leading `.` of a relative path. -/
  | current
  /-- A `..`. -/
  | parent
  | name (n : String)
deriving DecidableEq, Repr

namespace Component

/-- The place of a component in the order of components, names last. -/
def rank : Component → Nat
  | root => 0
  | current => 1
  | parent => 2
  | name _ => 3

def name? : Component → Option String
  | name n => some n
  | _ => none

def text : Component → String
  | root => "/"
  | current => "."
  | parent => ".."
  | name n => n

instance : LT Component where
  lt a b := a.rank < b.rank ∨ (a.rank = b.rank ∧ a.text < b.text)

instance : DecidableLT Component := fun a b =>
  inferInstanceAs (Decidable (a.rank < b.rank ∨ (a.rank = b.rank ∧ a.text < b.text)))

theorem lt_irrefl (a : Component) : ¬a < a := by
  rintro (less | ⟨_, less⟩)
  · exact Nat.lt_irrefl _ less
  · exact String.lt_irrefl _ less

theorem lt_trans {a b c : Component} (h : a < b) (h' : b < c) : a < c := by
  rcases h with less | ⟨same, less⟩ <;> rcases h' with less' | ⟨same', less'⟩
  · exact .inl (Nat.lt_trans less less')
  · exact .inl (same' ▸ less)
  · exact .inl (same ▸ less')
  · exact .inr ⟨same.trans same', String.lt_trans less less'⟩

instance : Std.Irrefl (· < · : Component → Component → Prop) := ⟨lt_irrefl⟩

instance : Trans (· < · : Component → Component → Prop) (· < ·) (· < ·) := ⟨lt_trans⟩

end Component

def chars (p : Path) : List Char := p.text.toList

def ofChars (cs : List Char) : Path := ⟨.ofList cs⟩

def isAbsolute (p : Path) : Bool := p.chars.head? = some '/'

/-- The pieces of a path between its slashes, the leading slash apart. -/
def segments (p : Path) : List (List Char) :=
  Text.pieces '/' (if p.isAbsolute then p.chars.drop 1 else p.chars)

/-- The component that a segment stands for; empty segments and `.` stand for none. -/
def componentOf? : List Char → Option Component
  | [] => none
  | ['.'] => none
  | ['.', '.'] => some .parent
  | cs => some (.name (.ofList cs))

/-- The component that a segment at the start of a relative path stands for. -/
def firstComponentOf? : List Char → Option Component
  | ['.'] => some .current
  | cs => componentOf? cs

/-- The segments with the components they stand for. -/
def readSegments (p : Path) : List (List Char × Option Component) :=
  match p.isAbsolute, p.segments with
  | false, s :: ss => (s, firstComponentOf? s) :: ss.map fun s => (s, componentOf? s)
  | _, ss => ss.map fun s => (s, componentOf? s)

/-- The steps of a path in order. -/
def components (p : Path) : List Component :=
  (if p.isAbsolute then [.root] else []) ++ p.readSegments.filterMap (·.2)

/-- Whether two paths have the same steps. -/
def same (p q : Path) : Bool := p.components = q.components

def ofSegments (absolute : Bool) (ss : List (List Char)) : Path :=
  ofChars ((if absolute then ['/'] else []) ++ Text.joinWith ['/'] ss)

/-- The shortest spelling of a list of components. -/
def ofComponents : List Component → Path
  | .root :: cs => ofSegments true (cs.map (·.text.toList))
  | cs => ofSegments false (cs.map (·.text.toList))

/-- The path in its shortest spelling, with the same components. -/
def tidy (p : Path) : Path := ofComponents p.components

/-- `p` followed by `q`; an absolute `q` stands alone. -/
def join (p : Path) (q : String) : Path :=
  if (Path.mk q).isAbsolute then ⟨q⟩
  else if p.chars.isEmpty || p.chars.getLast? = some '/' then ⟨p.text ++ q⟩
  else ⟨p.text ++ "/" ++ q⟩

/-- The path without its last component, spelled as before; none for the root and the empty path. -/
def parent? (p : Path) : Option Path :=
  match p.readSegments.reverse.dropWhile (·.2.isNone) with
  | [] => none
  | _ :: rest =>
    some (ofSegments p.isAbsolute ((rest.dropWhile (·.2.isNone)).reverse.map (·.1)))

/-- The last component, if it is a name. -/
def fileName? (p : Path) : Option String :=
  match p.components.getLast? with
  | some (.name n) => some n
  | _ => none

def fileName (p : Path) : String := p.fileName?.getD ""

/-- A file name cut at its last dot; a dot at the start of the name does not count. -/
def splitName (n : List Char) : List Char × Option (List Char) :=
  match Text.breakOnLast? '.' n with
  | some ([], _) => (n, none)
  | some (stem, extension) => (stem, some extension)
  | none => (n, none)

def stem? (p : Path) : Option String :=
  p.fileName?.map fun n => .ofList (splitName n.toList).1

/-- The part of the file name after its last dot. -/
def extension? (p : Path) : Option String :=
  p.fileName?.bind fun n => (splitName n.toList).2.map .ofList

/-- The path with the last segment that stands for a component, and all after it, written anew. -/
def replaceName (p : Path) (name : List Char) : Path :=
  let kept := (p.readSegments.reverse.dropWhile (·.2.isNone)).drop 1
  ofSegments p.isAbsolute (kept.reverse.map (·.1) ++ [name])

/-- The path with another extension on its file name; the old extension is first cut off the end of
the text, and a path that then ends in no name is left so. -/
def withExtension (p : Path) (extension : String) : Path :=
  let cut := (p.extension?.map String.length).getD 0
  let p := ofChars (p.chars.take (p.chars.length - cut))
  match p.stem? with
  | none => p
  | some stem =>
    p.replaceName (stem.toList ++ if extension.isEmpty then [] else '.' :: extension.toList)

/-- Whether the steps of `p` start with those of `start`. -/
def startsWith (p start : Path) : Bool := start.components.isPrefixOf p.components

/-- The path in its shortest spelling, taken from the directory `base` if it is relative. Two slashes
at the start, and a slash at the end, are kept. -/
def absoluteFrom (base p : Path) : Path :=
  let steps := p.components.filter (· ≠ .current)
  let start : Path :=
    if p.isAbsolute then
      if p.chars.take 2 = ['/', '/'] && p.chars.take 3 ≠ ['/', '/', '/'] then
        (steps.drop 1).foldl (fun q c => q.join c.text) ⟨"//"⟩
      else ofComponents steps
    else steps.foldl (fun q c => q.join c.text) base
  if p.chars.getLast? = some '/' then start.join "" else start

@[simp] theorem chars_ofChars (cs : List Char) : (ofChars cs).chars = cs := by
  simp [chars, ofChars]

end Path

end DirectiveRunner
