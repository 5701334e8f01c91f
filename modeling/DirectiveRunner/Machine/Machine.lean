import DirectiveRunner.Machine.Shell
/-!
# A small machine

A host with a handful of tools instead of a real system. Tools lie as files in the directories of
programs, and are found there along the search path; nothing else can be run.
-/

namespace DirectiveRunner.Machine

def toolDirectories : List Path := [⟨"/usr/bin"⟩, ⟨"/bin"⟩]

/-- The tools that run no others. -/
def plainTools : List (String × Tool) :=
  [("echo", echo), ("false", endWith 1), ("ls", list), ("printf", printTool),
    ("pwd", printDirectory), ("rm", remove), ("sleep", sleep), ("true", endWith 0)]

def shellNames : List String := ["sh", "dash"]

/-- The tool of a name; a shell can start others, `depth` deep. -/
def findTool (environment : List (String × String)) : (depth : Nat) → String → Option Tool
  | 0, name => plainTools.lookup name
  | depth + 1, name =>
    if name ∈ shellNames then
      some (Shell.shell ⟨findTool environment depth, fun n => environment.lookup n⟩)
    else plainTools.lookup name

/-- How deep shells may start each other. -/
def shellDepth : Nat := 8

def toolNames : List String := shellNames ++ plainTools.map (·.1)

def install (files : FileTree) : FileTree :=
  toolDirectories.foldl (fun files dir =>
    toolNames.foldl (fun files name =>
      (files.write (dir.join name) .empty).toOption.getD files)
      (files.makeDirectories dir)) files

def isTool (l : Location) : Bool :=
  toolDirectories.any fun dir => toolNames.any fun name => Path.same (FileTree.pathOf l) (dir.join name)

/-- The name of the tool at a path. -/
def toolAt (files : FileTree) (path : Path) : Except FileFailure String := do
  match ← files.find path with
  | (l, .file _) => if isTool l then .ok (l.getLast?.getD "") else .error .notPermitted
  | (_, .directory) => .error .notPermitted

/-- The name of the first tool at some paths; what is not permitted is remembered. -/
def firstTool (files : FileTree) (failure : FileFailure) : List Path → Except FileFailure String
  | [] => .error failure
  | path :: paths =>
    match toolAt files path with
    | .ok name => .ok name
    | .error .notPermitted => firstTool files .notPermitted paths
    | .error _ => firstTool files failure paths

/-- The name of the tool that is started as a program in a directory. -/
def locateTool (h : Host) (files : FileTree) (directory : Path) (program : String) :
    Except FileFailure String :=
  if program.isEmpty then .error .notFound
  else if '/' ∈ program.toList then toolAt files (directory.join program)
  else if FileTree.nameLimit < Text.byteLength program.toList then .error .nameTooLong
  else firstTool files .notFound (h.searchPath.map (·.join program))

/-- Makes sure that a process can start in a directory. -/
def checkDirectory (files : FileTree) (directory : Path) : Except FileFailure Unit := do
  match ← files.find directory with
  | (_, .directory) => .ok ()
  | (_, .file _) => .error .notDirectory

def prepare (h : Host) (l : Launch) (files : FileTree) : Except FileFailure Tool := do
  if (l.directory.text :: l.program :: l.arguments).any fun s => '\x00' ∈ s.toList then
    .error .nulInArgument
  checkDirectory files l.directory
  match findTool h.environment shellDepth (← locateTool h files l.directory l.program) with
  | some tool => .ok tool
  | none => .error .notFound

/-- The milliseconds between two looks at whether a process has ended. -/
def pollInterval : Nat := 50

/-- When a process is killed that has some time: at the first look that is not before that. -/
def killTime (timeout : Nat) : Nat := (timeout + (pollInterval - 1)) / pollInterval * pollInterval

def launch (h : Host) (l : Launch) (files : FileTree) : Outcome :=
  match prepare h l files with
  | .error e => { ending := .notStarted e, files }
  | .ok tool =>
    let start : Running :=
      { files, directory := l.directory, limit := l.timeout.map killTime }
    let (code, p) := tool l.arguments start
    { ending := if p.isOver then .killed else .exited (.ofNat code.toNat)
      output := ⟨p.output.toArray⟩
      files := p.files }

/-- The machine with some environment variables. -/
def host (environment : List (String × String)) : Host :=
  { environment
    launch := launch
      { environment, launch := fun _ files => { ending := .notStarted .notFound, files } } }

end DirectiveRunner.Machine
