import DirectiveRunner.Helper.Inspect
import DirectiveRunner.Text.ShellWords
/-!
# Helpers that act

The helpers that change the session, the files or the journal.
-/

namespace DirectiveRunner.Helper

abbrev Act := List Value → Action EvalError Value

/-- Asks the change cache about a file. -/
def hasChanged (function : String) (args : List Value) : Action EvalError Bool := do
  let target := resolveTarget (← .setting) (← .ofExcept (textArg function args 0))
  let w ← .world
  let (answer, cache, files) := w.session.cache.hasChanged w.files target
  Action.modify fun w => { w with session := { w.session with cache := cache }, files := files }
  match answer with
  | .ok changed => return changed
  | .error e => .fail (.helper function e.text)

/-- Whether a file has changed since the cache was last asked about it. -/
def changed : Act := fun args => do
  Action.ofExcept (arity "changed" args 1 1)
  return .bool (← hasChanged "changed" args)

def unchanged : Act := fun args => do
  Action.ofExcept (arity "unchanged" args 1 1)
  return .bool (!(← hasChanged "unchanged" args))

def halt : Act := fun args => do
  Action.ofExcept (arity "halt" args 0 1)
  match args.head? with
  | none => Action.halt 0
  | some (.int code) => Action.halt code
  | some v =>
    Action.fail (.helper "halt" ("the exit code must be an integer, found a " ++ v.typeName))
  return .bool true

def putSession : Act := fun args => do
  Action.ofExcept (arity "putSession" args 2 2)
  let key ← .ofExcept (textArg "putSession" args 0)
  let value := (args[1]?).getD .null
  Action.modifySession (·.put key value)
  Action.record (.stored key value)
  return .null

def showMessage : Act := fun args => do
  Action.ofExcept (arity "showMessage" args 2 2)
  let title ← .ofExcept (textArg "showMessage" args 0)
  let text ← .ofExcept (textArg "showMessage" args 1)
  Action.report (.message title text)
  return .null

/-- The command to be run at once: a command, or a line cut into words. -/
def commandArg (function : String) (args : List Value) : Except EvalError CommandLine :=
  match args.head? with
  | some (.command c) => .ok c
  | some (.str line) =>
    match Text.splitWords? line.toList with
    | some words => .ok ⟨words.map .ofList, none⟩
    | none => failure function ("cannot parse '" ++ line ++ "'")
  | some v => failure function ("expected a command or a string, found a " ++ v.typeName)
  | none => missingArgument function 0

/-- Runs a command at once, also in a dry run, and gives its exit code and what it printed. -/
def unsafelyExecuteSystemCommand : Act := fun args => do
  let function := "unsafelyExecuteSystemCommand"
  Action.ofExcept (arity function args 1 1)
  let command ← .ofExcept (commandArg function args)
  match command.arguments with
  | [] => Action.fail (.helper function "No command specified to run.")
  | program :: arguments =>
    let s ← Action.setting
    let directory := command.directory.getD s.options.workingDirectory
    Action.record (.launched .expression s.file.path command directory)
    let w ← Action.world
    -- the process has no timeout, so if it is killed, that is not because of the time it takes
    let outcome := s.host.launch { program, arguments, directory } w.files
    Action.setFiles outcome.files
    match outcome.ending with
    | .notStarted e =>
      Action.fail (.helper function
        ("Command '" ++ command.text ++ "' could not be executed: " ++ e.text))
    | .exited code =>
      match Text.Utf8.decode? outcome.output with
      | some text => return .list [.int code, .str text]
      | none =>
        Action.fail (.helper function
          ("Command '" ++ command.text ++ "' produced output that was not valid UTF-8"))
    | .killed => return .list [.int (-1), .str (Text.Utf8.decodeLossy outcome.output)]

/-- The text that a value is written as: a list has each of its elements on a line of its own. -/
def writtenText : Value → String
  | .list lines => String.join (lines.map fun l => l.text ++ "\n")
  | v => v.text

/-- Writes a file, or adds to it, and tells whether that went well. -/
def writeToFile : Act := fun args => do
  Action.ofExcept (arity "writeToFile" args 3 3)
  let s ← Action.setting
  let target := resolvePath s (← .ofExcept (textArg "writeToFile" args 0))
  let bytes := Text.Utf8.encode (writtenText ((args[1]?).getD .null))
  let append ← .ofExcept (boolArg "writeToFile" args 2)
  let w ← Action.world
  match (if append then w.files.append target bytes else w.files.write target bytes) with
  | .ok files =>
    Action.setFiles files
    return .bool true
  | .error _ => return .bool false

end DirectiveRunner.Helper
