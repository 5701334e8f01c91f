import DirectiveRunner.Run.Program
/-!
# The command line

The program on a real disk. It fetches the files that a run asks for, carries out the run on them, and
writes back those that have changed. It starts no processes: every run is a dry run, which shows what
would be started.
-/

namespace DirectiveRunner.Disk

/-- The files with a file of the disk, if there is one at the path. -/
def fetch (files : FileTree) (p : Path) : IO FileTree := do
  try
    let bytes ← IO.FS.readBinFile p.text
    let files := files.makeDirectories (p.parent?.getD ⟨"/"⟩)
    return (files.write p bytes).toOption.getD files
  catch _ => return files

def fetchAll (files : FileTree) (ps : List Path) : IO FileTree := ps.foldlM fetch files

/-- Writes the files back that have changed. -/
def store (before after : FileTree) : IO Unit :=
  after.nodes.forM fun (l, n) =>
    match n with
    | .file bytes =>
      if before.node? l = some n then pure ()
      else IO.FS.writeBinFile (FileTree.pathOf l).text bytes
    | .directory => pure ()

/-- The runs of letters, digits and underscores in a text, among them the variables it names. -/
def words (text : String) : List String :=
  (Text.pieces ' ' (text.toList.map fun c => if Expansion.isNameChar c then c else ' ')).map .ofList

/-- The variables of the environment with some names. -/
def environmentOf (names : List String) : IO (List (String × String)) := do
  let found ← names.mapM fun name => do return (← IO.getEnv name).map (name, ·)
  return found.filterMap id

/-- A host that starts no processes. -/
def idleHost (environment : List (String × String)) : Host :=
  { environment, launch := fun _ files => { ending := .notStarted .notPermitted, files } }

/-- Where the files that a run asks for may be. -/
def sourcePlaces (options : Options) (names : List String) : List Path :=
  names.flatMap fun name =>
    let p := options.workingDirectory.join name
    p :: options.fileTypes.map (ProjectFile.extended p)

/-- Where the rules that some files ask for may be, and the files that these are asked for. -/
def rulePlaces (files : FileTree) (options : Options) (targets : List ProjectFile) : List Path :=
  targets.flatMap fun target =>
    ((target.directives files options.headerOnly).toOption.getD []).flatMap fun d =>
      (d.reference?.bind Value.asText?).toList.map Path.mk ++
        Rule.places d.identifier options.rulePaths

/-- Fetches everything that an invocation asks for. -/
def prepare (i : Invocation) : IO (Host × FileTree) := do
  let standard ← environmentOf ["HOME", "PATH"]
  let files := FileTree.empty.makeDirectories i.directory
  let files ← fetchAll files (Config.places (idleHost standard) i.directory)
  let text :=
    match Config.find? (idleHost standard) files i.directory with
    | some p => (files.readText p).toOption.getD ""
    | none => ""
  let host := idleHost (standard ++ (← environmentOf (words text)))
  match Config.resolveOptions host files i.directory i.overrides with
  | .error _ => return (host, files)
  | .ok options =>
    let files ← fetchAll files (options.reference.toList ++ sourcePlaces options i.files)
    let targets := (Program.targets files options i.files).toOption.getD []
    return (host, ← fetchAll files (rulePlaces files options targets))

def carryOut (i : Invocation) : IO UInt32 := do
  let started ← IO.monoMsNow
  let (host, files) ← prepare i
  let (result, world) := Program.run host i files
  IO.print world.transcript
  store files world.files
  match result with
  | .ok _ => pure ()
  | .error e => IO.eprintln ("\nError: " ++ e.text)
  IO.print (Notice.totalTime ((← IO.monoMsNow) - started)).text
  return .ofNat (Program.exitCode result)

end DirectiveRunner.Disk

open DirectiveRunner in
def main (arguments : List String) : IO UInt32 := do
  match Invocation.read arguments with
  | .error e =>
    IO.eprintln e.text
    return if e = .helpWanted ∨ e = .versionWanted then 0 else 2
  | .ok i =>
    let here : Path := ⟨(← IO.currentDir).toString⟩
    Disk.carryOut {
      i with
      directory := Path.absoluteFrom here i.directory
      overrides := { i.overrides with dryRun := true } }
