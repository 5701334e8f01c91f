import DirectiveRunner.Cache.Observation
import DirectiveRunner.Text.Lines
/-!
# The change cache

A cache answers whether a file has changed since it was last asked about, and remembers what it saw.
A cache with a store reads it before every answer and writes it after, so several caches on one store
answer as one. In the store every file has a line `path=observation`; the last `=` of a line separates
the two, so a path may hold others.
-/

namespace DirectiveRunner

/-- Why a change cache could not answer. -/
inductive CacheError where
  | readStore (path : Path) (reason : FileFailure)
  | writeStore (path : Path) (reason : FileFailure)
  | readFile (path : Path) (reason : FileFailure)
deriving DecidableEq, Repr

def CacheError.text : CacheError → String
  | readStore p r => "Failed to read the reference store '" ++ p.text ++ "': " ++ r.text
  | writeStore p r => "Failed to write the reference store '" ++ p.text ++ "': " ++ r.text
  | readFile p r => "Failed to read '" ++ p.text ++ "' for checksumming: " ++ r.text

/-- What was last seen of each file, in the order of the paths. Two spellings of a path with the same
components are one entry, which keeps the first spelling. -/
abbrev Observations := List (List Path.Component × Path × Observation)

namespace Observations

/-- What was last seen of a file. -/
def last? (o : Observations) (p : Path) : Option Observation :=
  (Dict.lookup p.components o).map (·.2)

def remember (o : Observations) (p : Path) (seen : Observation) : Observations :=
  let spelled := ((Dict.lookup p.components o).map (·.1)).getD p
  Dict.insert p.components (spelled, seen) o

def line (p : Path) (seen : Observation) : List Char := p.chars ++ ['='] ++ seen.text

def write (o : Observations) : List Char := Text.unlines (o.map fun e => line e.2.1 e.2.2)

/-- Reads a line of a store; a line that is blank or makes no sense says nothing. -/
def readLine? (l : List Char) : Option (Path × Observation) :=
  if Text.allBlank l then none
  else do
    let (path, seen) ← Text.breakOnLast? '=' l
    return (.ofChars path, ← Observation.read? seen)

def read (store : List Char) : Observations :=
  (Text.lines store).foldl (fun o l =>
    match readLine? l with
    | some (p, seen) => o.remember p seen
    | none => o) []

/-- What was remembered last of a file is what was seen last of it. -/
theorem last?_remember (o : Observations) (p : Path) (seen : Observation) (p' : Path) :
    (o.remember p seen).last? p' =
      if p'.components = p.components then some seen else o.last? p' := by
  unfold last? remember
  split
  · next same => rw [same, Dict.lookup_insert_self, Option.map_some]
  · next other => rw [Dict.lookup_insert_of_ne other]

end Observations

structure Cache where
  /-- The file that keeps the observations between runs. -/
  store : Option Path := none
  /-- What was last seen of each file. -/
  observations : Observations := []
deriving DecidableEq, Repr, Inhabited

namespace Cache

/-- The name a file is remembered under: its canonical path or, if there is none, its name in the
canonical path of its directory. -/
def keyOf (files : FileTree) (p : Path) : Path :=
  match files.canonical p with
  | .ok c => c
  | .error _ =>
    -- what is not there is named by the directory that it would be in
    let p := if p.chars.isEmpty then p else Path.absoluteFrom files.base p
    match p.parent?, p.fileName? with
    | some parent, some name =>
      match files.canonical parent with
      | .ok c => c.join name
      | .error _ => p
    | _, _ => p

/-- The cache with the observations of its store; a store that does not exist changes nothing. -/
def reload (c : Cache) (files : FileTree) : Except CacheError Cache :=
  match c.store with
  | none => .ok c
  | some store =>
    match files.readText store with
    | .ok text => .ok { c with observations := .read text.toList }
    | .error .notFound => .ok c
    | .error e => .error (.readStore store e)

/-- The files with the store of the cache written. -/
def persist (c : Cache) (files : FileTree) : Except CacheError FileTree :=
  match c.store with
  | none => .ok files
  | some store =>
    match files.write store (Text.Utf8.encode (.ofList c.observations.write)) with
    | .ok files => .ok files
    | .error e => .error (.writeStore store e)

def observe (files : FileTree) (p : Path) : Except CacheError Observation :=
  match Observation.ofFile files p with
  | .ok seen => .ok seen
  | .error e => .error (.readFile p e)

/-- Whether a file has changed since it was last asked about, with the cache and the files after the
question. -/
def hasChanged (c : Cache) (files : FileTree) (p : Path) :
    Except CacheError Bool × Cache × FileTree :=
  let key := keyOf files p
  match c.reload files with
  | .error e => (.error e, c, files)
  | .ok c =>
    -- what was read from the store is kept, whether the file can be looked at or not
    match observe files key with
    | .error e => (.error e, c, files)
    | .ok seen =>
      let changed := decide (c.observations.last? key ≠ some seen)
      let c := { c with observations := c.observations.remember key seen }
      -- and so is what was seen of the file, even if the store cannot be written
      match c.persist files with
      | .error e => (.error e, c, files)
      | .ok files => (.ok changed, c, files)

/-- The opposite of `hasChanged`, with the same effects. -/
def isUnchanged (c : Cache) (files : FileTree) (p : Path) :
    Except CacheError Bool × Cache × FileTree :=
  let (answer, c, files) := c.hasChanged files p
  (answer.map (!·), c, files)

end Cache

end DirectiveRunner
