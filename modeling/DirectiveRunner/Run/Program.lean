import DirectiveRunner.Config.Find
import DirectiveRunner.Invocation
import DirectiveRunner.Run.File
/-!
# Whole runs

A run resolves its options, then the files it is asked for, and then processes them in one session. The
exit code is that of the worst status, or of a caught error if the run could not be finished.
-/

namespace DirectiveRunner

/-- Why a run could not be finished. -/
inductive ProgramError where
  | config (e : ConfigError)
  | run (e : RunError)
deriving DecidableEq, Repr

def ProgramError.text : ProgramError → String
  | config e => e.text
  | run e => e.text

namespace Program

/-- The files that a run is asked for. -/
def targets (files : FileTree) (options : Options) (names : List String) :
    Except RunError (List ProjectFile) :=
  names.mapM fun name =>
    ProjectFile.resolve files name options.workingDirectory options.fileTypes

/-- Processes files with some options, in a session of its own. -/
def process (host : Host) (options : Options) (properties : List (String × String))
    (files : FileTree) (targets : List ProjectFile) : Except RunError Status × World :=
  let world : World := { session := Session.start properties options.reference, files }
  match targets with
  | [] => (.ok .processing, world)
  | file :: _ => (Execution.executeFiles targets).run { options, file, host } world

def run (host : Host) (i : Invocation) (files : FileTree) :
    Except ProgramError Status × World :=
  let resolved : Except ProgramError (Options × List ProjectFile) := do
    let options ← (Config.resolveOptions host files i.directory i.overrides).mapError ProgramError.config
    let targets ← (targets files options i.files).mapError ProgramError.run
    return (options, targets)
  match resolved with
  | .error e => (.error e, { files })
  | .ok (options, targets) =>
    let (result, world) := process host options i.properties files targets
    (result.mapError ProgramError.run, world)

def exitCode : Except ProgramError Status → Nat
  | .ok status => status.exitCode
  | .error _ => Status.caughtException.exitCode

end Program

end DirectiveRunner
