import DirectiveRunner.Config.Expansion
import DirectiveRunner.Files.Failure
import DirectiveRunner.Options
import DirectiveRunner.Toml.Fields
import DirectiveRunner.Toml.Read
/-!
# Configurations

A configuration sets some of the options of a run and leaves the others at their defaults. The
settings of the command line (`Overrides`) win over it.
-/

namespace DirectiveRunner

/-- A file type as a configuration gives it. -/
structure FileTypeEntry where
  /-- The extension without the dot. -/
  extension : String
  /-- The pattern, if it is not the one of TeX. -/
  pattern : Option String := none
deriving DecidableEq, Repr

structure Config where
  /-- Where rules are looked for. -/
  paths : List String := []
  maxLoops : Option UInt32 := none
  timeout : Option Nat := none
  haltOnErrors : Option Bool := none
  verbose : Option Bool := none
  header : Option Bool := none
  /-- Where the checksums of files are kept; blank if they are not kept. -/
  reference : Option String := none
  /-- File types to be added, or to replace known ones. -/
  fileTypes : List FileTypeEntry := []
deriving DecidableEq, Repr

/-- The settings of a command line; those that are not given leave the options as they are. -/
structure Overrides where
  maxLoops : Option UInt32 := none
  timeout : Option Nat := none
  verbose : Option Bool := none
  dryRun : Bool := false
  headerOnly : Bool := false
deriving DecidableEq, Repr

/-- Why there are no options. -/
inductive ConfigError where
  /-- The working directory cannot be found. -/
  | inaccessible (directory : Path)
  | unreadable (path : Path)
  | malformed (path : Path)
  /-- Directives may not be run at all. -/
  | noLoops
  /-- A new file type has no pattern. -/
  | patternNeeded (extension : String)
  | badPattern (extension : String)
  | unknownVariable (path name : String)
deriving DecidableEq, Repr

namespace ConfigError

def text : ConfigError → String
  | inaccessible directory =>
    "The working directory '" ++ directory.text ++ "' is not accessible"
  | unreadable path => "Failed to read configuration file '" ++ path.text ++ "'"
  | malformed path => "Failed to parse configuration file '" ++ path.text ++ "'"
  | noLoops => "'maxloops' must be greater than zero"
  | patternNeeded extension =>
    "The file type '" ++ extension ++ "' is not known and needs a pattern"
  | badPattern extension => "Invalid pattern for file type '" ++ extension ++ "'"
  | unknownVariable path name =>
    "Failed to expand path '" ++ path ++ "': error looking key '" ++ name ++
      "' up: environment variable not found"

end ConfigError

namespace FileTypeEntry

open Toml in
def ofToml? (d : Data) : Option FileTypeEntry := do
  let names := ["extension", "pattern"]
  let fs ← d.fields? names
  if !onlyKnown names fs then none
  return {
    extension := ← field? fs "extension" Data.text? none
    pattern := ← optional? fs "pattern" Data.text? }

/-- The file type that an entry gives, among those that are known before. -/
def fileType (e : FileTypeEntry) (engine : Regex.Engine) (known : List FileType) :
    Except ConfigError FileType :=
  match e.pattern, known.any (·.extension = e.extension) with
  | none, false => .error (.patternNeeded e.extension)
  | pattern, _ =>
    match FileType.compile? e.extension (pattern.getD FileType.texPattern) engine with
    | some type => .ok type
    | none => .error (.badPattern e.extension)

end FileTypeEntry

namespace FileType

/-- The file types with one more, which replaces the first one of the same extension. -/
def merge (type : FileType) : List FileType → List FileType
  | [] => [type]
  | t :: ts => if t.extension = type.extension then type :: ts else t :: merge type ts

def mergeAll (engine : Regex.Engine) (known : List FileType) (entries : List FileTypeEntry) :
    Except ConfigError (List FileType) :=
  entries.foldlM (fun known e => do return merge (← e.fileType engine known) known) known

end FileType

namespace Config

/-- The name of the file with the checksums, if the configuration does not say. -/
def referenceName : String := "arara.reference"

def fieldNames : List String :=
  ["paths", "maxloops", "timeout", "halt_on_errors", "verbose", "header", "reference", "filetypes"]

/-- A number of loops, which has 32 bits. -/
def loops? (d : Toml.Data) : Option UInt32 :=
  d.nat?.bind fun n => if n < UInt32.size then some (.ofNat n) else none

open Toml in
def read? (s : String) : Option Config := do
  let fs ← Toml.read? s
  if !onlyKnown fieldNames fs then none
  return {
    paths := ← field? fs "paths" (Data.list? Data.text?) (some [])
    maxLoops := ← optional? fs "maxloops" loops?
    timeout := ← optional? fs "timeout" Data.nat?
    haltOnErrors := ← optional? fs "halt_on_errors" Data.bool?
    verbose := ← optional? fs "verbose" Data.bool?
    header := ← optional? fs "header" Data.bool?
    reference := ← optional? fs "reference" Data.text?
    fileTypes := ← field? fs "filetypes" (Data.list? FileTypeEntry.ofToml?) (some []) }

def expandPath (valueOf? : String → Option String) (directory : Path) (raw : String) :
    Except ConfigError Path :=
  match Expansion.expandPath valueOf? directory raw with
  | .ok p => .ok p
  | .error name => .error (.unknownVariable raw name)

/-- The number of loops, which must not be zero. -/
def checkedLoops (c : Config) : Except ConfigError (Option UInt32) :=
  if c.maxLoops = some 0 then .error .noLoops else .ok c.maxLoops

/-- Where the checksums are kept. -/
def referencePath (valueOf? : String → Option String) (directory : Path) (c : Config) :
    Except ConfigError (Option Path) :=
  match c.reference with
  | none => .ok (some (directory.join referenceName))
  | some raw =>
    if isBlankText raw then .ok none else (expandPath valueOf? directory raw).map some

/-- The options of a run in a directory. -/
def options (c : Config) (valueOf? : String → Option String) (directory : Path)
    (engine : Regex.Engine := .standard) : Except ConfigError Options := do
  let base : Options := { workingDirectory := directory, fileTypes := FileType.defaults engine }
  -- of several errors the first in this order is the one that is reported
  let rulePaths ← c.paths.mapM (expandPath valueOf? directory)
  let maxLoops ← c.checkedLoops
  let reference ← c.referencePath valueOf? directory
  let fileTypes ← FileType.mergeAll engine base.fileTypes c.fileTypes
  return { base with
    rulePaths, reference, fileTypes
    maxLoops := maxLoops.getD base.maxLoops
    timeout := c.timeout
    haltOnErrors := c.haltOnErrors.getD base.haltOnErrors
    verbose := c.verbose.getD base.verbose
    headerOnly := c.header.getD base.headerOnly }

end Config

namespace Options

def override (o : Options) (c : Overrides) : Options :=
  { o with
    maxLoops := c.maxLoops.getD o.maxLoops
    timeout := c.timeout <|> o.timeout
    verbose := c.verbose.getD o.verbose
    dryRun := c.dryRun || o.dryRun
    headerOnly := c.headerOnly || o.headerOnly }

end Options

end DirectiveRunner
