import DirectiveRunner.Command
import DirectiveRunner.Files.Tree
import DirectiveRunner.Regex.Read
/-!
# The system around a run

What a run needs of the system it runs on, apart from its files: the environment variables, a way to
start processes, a user to ask, and an engine for regular expressions. A process is a function of the
files it finds: it ends in some way, prints something and leaves files behind. What the user answers is
a function of the files, too.
-/

namespace DirectiveRunner

/-- A process to be started. -/
structure Launch where
  program : String
  arguments : List String
  directory : Path
  /-- After how many milliseconds it is killed. -/
  timeout : Option Nat := none
deriving DecidableEq, Repr

/-- How a process ended. -/
inductive Ending where
  | notStarted (reason : FileFailure)
  /-- It ended by itself with an exit code. -/
  | exited (code : Int64)
  /-- It was killed after its time. -/
  | killed
deriving DecidableEq, Repr

/-- What comes of a process. -/
structure Outcome where
  ending : Ending
  /-- What it printed. -/
  output : ByteArray := .empty
  /-- The files it leaves. -/
  files : FileTree

/-- The answers of a user, each of which may fail to come. -/
structure User where
  /-- The text typed at a prompt, which may come with a text to be taken instead of an empty one. -/
  input : (prompt : String) → (default : Option String) → FileTree → Except String String
  /-- The choice from some options. -/
  choose : (prompt : String) → (options : List String) → FileTree →
    Except String (Fin options.length)

namespace User

/-- Without a terminal there is nobody to ask. -/
def absent : User where
  input _ _ _ := .error "IO error: not a terminal"
  choose _ _ _ := .error "IO error: not a terminal"

end User

/-- The system around a run. -/
structure Host where
  environment : List (String × String)
  /-- What comes of a process that is started on some files. -/
  launch : Launch → FileTree → Outcome
  user : User := .absent
  engine : Regex.Engine := .standard

namespace Host

/-- The value of an environment variable. -/
def valueOf? (h : Host) (name : String) : Option String := h.environment.lookup name

/-- The directories that programs are looked for in. -/
def searchPath (h : Host) : List Path :=
  match h.valueOf? "PATH" with
  | some dirs => (Text.pieces ':' dirs.toList).map Path.ofChars
  | none => []

def isOnPath (h : Host) (files : FileTree) (name : String) : Bool :=
  h.searchPath.any fun dir => files.isFile (dir.join name)

end Host

end DirectiveRunner
