import DirectiveRunner.Directive.Extract
import DirectiveRunner.Run.Execution
/-!
# Processing files

A file is found by a name, with or without its extension, and processed by executing its directives in
order until it is halted. The status of a file is the worst of its directives, and the status of
several files the worst of theirs. An error ends the whole run.
-/

namespace DirectiveRunner

namespace FileType

def find? (types : List FileType) (extension : String) : Option FileType :=
  types.find? (·.extension = extension)

end FileType

namespace ProjectFile

def name (f : ProjectFile) : String := f.path.fileName

/-- A file by its one path, or by the path it was found at if it has none. -/
def located (files : FileTree) (path : Path) (type : FileType) : ProjectFile :=
  ⟨(files.canonical path).toOption.getD path, type⟩

/-- A file of a path that has a known extension. -/
def asNamed? (files : FileTree) (path : Path) (types : List FileType) : Option ProjectFile :=
  if files.isFile path then
    (FileType.find? types (path.extension?.getD "")).map (located files path)
  else none

/-- The path with an extension written after it. -/
def extended (path : Path) (type : FileType) : Path := ⟨path.text ++ "." ++ type.extension⟩

/-- The first file of a path with the extension of a known file type written after it. -/
def asExtended? (files : FileTree) (path : Path) (types : List FileType) : Option ProjectFile :=
  (types.find? fun type => files.isFile (extended path type)).map fun type =>
    located files (extended path type) type

def resolve (files : FileTree) (name : String) (directory : Path) (types : List FileType) :
    Except RunError ProjectFile :=
  let path := directory.join name
  -- a file with just this name comes first, but only if its own extension is known
  match asNamed? files path types <|> asExtended? files path types with
  | some f => .ok f
  | none => .error (.fileNotFound name)

/-- The lines of a file; bytes that are no text are replaced. -/
def readLines (files : FileTree) (f : ProjectFile) : Except RunError (List String) :=
  match files.read f.path with
  | .ok bytes => .ok (linesOf (Text.Utf8.decodeLossy bytes))
  | .error e => .error (.io f.path e)

def directives (files : FileTree) (headerOnly : Bool) (f : ProjectFile) :
    Except RunError (List Directive) := do
  let lines ← readLines files f
  let ds ← Directive.extract lines headerOnly f.type
  Directive.attach ds f.path

def size? (files : FileTree) (f : ProjectFile) : Option Nat :=
  (files.read f.path).toOption.map ByteArray.size

end ProjectFile

namespace Execution

variable [Evaluator]

/-- Executes directives in order until the file is halted, and gives the worst status with the one so
far. -/
def executeAll (status : Status) : List Directive → Action RunError Status
  | [] => pure status
  | d :: ds => do
    let status := status.max (← execute d)
    if (← Action.haltCode?).isSome then return status
    executeAll status ds

def executeCurrent : Action RunError Status := do
  let s ← Action.setting
  let w ← Action.world
  let ds ← .ofExcept (s.file.directives w.files s.options.headerOnly)
  -- a file whose directives cannot be read is not announced
  Action.report (.processing s.file.name (s.file.size? w.files))
  match ds with
  | [] =>
    Action.report (.noDirectives s.file.name)
    return .processing
  | ds => executeAll .processing ds

def executeFile (f : ProjectFile) : Action RunError Status :=
  executeCurrent.withSetting fun s => { s with file := f }

/-- Processes files in order, and gives the worst status with the one so far. -/
def executeFilesFrom (status : Status) : List ProjectFile → Action RunError Status
  | [] => pure status
  | f :: fs => do executeFilesFrom (status.max (← executeFile f)) fs

def executeFiles (files : List ProjectFile) : Action RunError Status :=
  executeFilesFrom .processing files

end Execution

end DirectiveRunner
