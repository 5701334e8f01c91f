import DirectiveRunner.Helper.Compute
import DirectiveRunner.Regex.Wildcard
import DirectiveRunner.Run.Action
import DirectiveRunner.Text.Lines
/-!
# Helpers that look

The helpers whose value depends on their arguments, on the setting and on the world, none of which
they change.
-/

namespace DirectiveRunner.Helper

/-- A function of values that looks at the setting and the world. -/
abbrev Inspection := Setting → World → List Value → Except EvalError Value

/-- The path of an argument, taken from the working directory. -/
def resolvePath (s : Setting) (argument : String) : Path :=
  (s.options.workingDirectory.join argument).tidy

/-- The file of an argument: a word without dots and slashes is the extension of a file beside the
current one, anything else is a path. -/
def resolveTarget (s : Setting) (argument : String) : Path :=
  if argument.toList.any fun c => c = '.' || c = '/' then resolvePath s argument
  else s.file.path.withExtension argument

def exists? : Inspection := fun s w args => do
  arity "exists" args 1 1
  return .bool (w.files.pathExists (resolveTarget s (← textArg "exists" args 0)))

def missing : Inspection := fun s w args => do
  arity "missing" args 1 1
  return .bool (!w.files.pathExists (resolveTarget s (← textArg "missing" args 0)))

/-- Whether a file holds a match of a regular expression. -/
def found : Inspection := fun s w args => do
  arity "found" args 2 2
  let target := resolveTarget s (← textArg "found" args 0)
  let pattern ← textArg "found" args 1
  match s.host.engine.compile? pattern with
  | none => .error (.badPattern "found")
  | some regex =>
    if w.files.pathExists target then
      match w.files.readText target with
      | .ok content => return .bool (regex.isMatch content.toList)
      | .error e => failure "found" ("could not read '" ++ target.text ++ "': " ++ e.text)
    else return .bool false

/-- The text that an input takes if the user enters none. -/
def defaultAnswer (args : List Value) : Except EvalError (Option String) :=
  if args.length = 2 then some <$> textArg "showInput" args 1 else pure none

/-- Asks the user for a text. -/
def showInput : Inspection := fun s w args => do
  arity "showInput" args 1 2
  let prompt ← textArg "showInput" args 0
  match s.host.user.input prompt (← defaultAnswer args) w.files with
  | .ok text => return .str text
  | .error e => failure "showInput" e

/-- Asks the user to choose from a list, and gives the place of the choice, counted from one. -/
def showOptions : Inspection := fun s w args => do
  arity "showOptions" args 2 2
  let prompt ← textArg "showOptions" args 0
  let options ← textsArg "showOptions" args 1
  match s.host.user.choose prompt options w.files with
  | .ok choice => return .int (Int64.ofNat (choice + 1))
  | .error e => failure "showOptions" e

def toFile : Inspection := fun s _ args => do
  arity "toFile" args 1 1
  return .str (resolvePath s (← textArg "toFile" args 0)).text

def currentFile (function : String) : Inspection := fun s _ args => do
  arity function args 0 0
  return .str s.file.path.text

/-- The name of the current file. -/
def getOriginalFile : Inspection := fun s _ args => do
  arity "getOriginalFile" args 0 0
  return .str s.file.path.fileName

/-- The stored values and the properties. -/
def getSession : Inspection := fun _ w args => do
  arity "getSession" args 0 0
  return .map w.session.snapshot

/-- The command of the visible texts of the arguments after the first, run in the directory that the
first one names. -/
def getCommandWithWorkingDirectory : Inspection := fun s _ args => do
  let function := "getCommandWithWorkingDirectory"
  let directory := resolvePath s (← textArg function args 0)
  commandOf function (visibleTexts args.tail) (some directory)

def isVerboseMode : Inspection := fun s _ args => do
  arity "isVerboseMode" args 0 0
  return .bool s.options.verbose

def isDryRunMode : Inspection := fun s _ args => do
  arity "isDryRunMode" args 0 0
  return .bool s.options.dryRun

def isOnPath : Inspection := fun s w args => do
  arity "isOnPath" args 1 1
  return .bool (s.host.isOnPath w.files (← textArg "isOnPath" args 0))

/-- The files in a directory whose names are wanted; those further down only if asked for. -/
def listFiles (function : String) (wanted : String → Bool) : Inspection := fun s w args => do
  arity function args 3 3
  let directory := resolvePath s (← textArg function args 0)
  let deep ← boolArg function args 2
  match w.files.find directory with
  | .ok (l, .directory) =>
    let found := (w.files.below l deep).filterMap fun
      | (l', .file _) =>
        let names := l'.drop l.length
        if wanted (names.getLastD "") then some (Value.str (names.foldl .join directory).text)
        else none
      | (_, .directory) => none
    return .list found
  | _ => failure function ("'" ++ directory.text ++ "' is not a directory")

def listFilesByExtensions : Inspection := fun s w args => do
  let extensions ← textsArg "listFilesByExtensions" args 1
  listFiles "listFilesByExtensions"
    (fun name => (Path.mk name).extension?.any (· ∈ extensions)) s w args

def listFilesByPatterns : Inspection := fun s w args => do
  let patterns ← textsArg "listFilesByPatterns" args 1
  match patterns.mapM (Wildcard.compile? · s.host.engine) with
  | none => .error (.badPattern "listFilesByPatterns")
  | some regexes =>
    listFiles "listFilesByPatterns" (fun name => regexes.any (·.isMatch name.toList)) s w args

/-- The lines of a file; none if it cannot be read. -/
def readFromFile : Inspection := fun s w args => do
  arity "readFromFile" args 1 1
  match w.files.readText (resolvePath s (← textArg "readFromFile" args 0)) with
  | .ok content => return .list ((linesOf content).map .str)
  | .error _ => return .list []

/-- Whether a directory is, or lies in, another one. -/
def isSubdirectory : Inspection := fun s w args => do
  let function := "isSubdirectory"
  arity function args 2 2
  let child := resolvePath s (← textArg function args 0)
  let parent := resolvePath s (← textArg function args 1)
  let canonical (p : Path) : Except EvalError Path :=
    if w.files.isDirectory p then
      match w.files.canonical p with
      | .ok c => .ok c
      | .error e => failure function e.text
    else failure function ("'" ++ p.text ++ "' is not a directory")
  return .bool ((← canonical child).startsWith (← canonical parent))

def isCygwin : Inspection := fun s _ args => do
  arity "isCygwin" args 0 2
  let type := (s.host.valueOf? "OSTYPE").getD ""
  choose "isCygwin" (Text.breakOn? "cygwin".toList (Text.lowerAscii type.toList)).isSome args

end DirectiveRunner.Helper
