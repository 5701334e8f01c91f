import DirectiveRunner.Run.Error
import DirectiveRunner.Run.Evaluator
/-!
# Running commands

The template of a command is rendered to a value whose leaves, blank ones apart, are the entries to be
run in order: a truth value is a result, and a command line is a process whose exit code is judged. The
first failure ends the command if files are halted on errors, and a halt always ends it.
-/

namespace DirectiveRunner.Command

/-- How the exit code of a process is judged if the command does not say. -/
def defaultCheck : String := "value == 0"

/-- The name of the exit code in an exit expression. -/
def exitValueKey : String := "value"

/-- A command with the rule and the directive it is run for. -/
structure Job where
  rule : Rule
  command : RuleCommand
  /-- How the directive is guarded or repeated. -/
  conditional : Conditional
deriving DecidableEq, Repr

namespace Job

def label (j : Job) : EntryLabel := .of j.rule j.command.name

def heading (j : Job) : DryHeading := ⟨j.label, j.rule.authors, j.conditional⟩

end Job

/-- Whether a process with an exit code succeeded. -/
def judge (j : Job) (code : Int64) : Action RunError Bool := do
  let check := j.command.exit.getD defaultCheck
  Action.record (.judging check)
  let verdict ← (evaluate check [(exitValueKey, .int code)]).mapError .evaluation
  match verdict.asBool? with
  | some b => return b
  | none => .fail (.nonBooleanExitCheck verdict.typeName)

/-- The exit code of a process, if it ended by itself. -/
def exitCode (line : CommandLine) : Ending → Action RunError Int64
  | .exited code => pure code
  | .notStarted e => .fail (.processSpawn line.text e.text)
  | .killed => do .fail (.processTimeout line.text ((← Action.setting).options.timeout.getD 0))

/-- Takes over what a process left behind, shows what it printed if everything is to be shown, and gives
its exit code. -/
def conclude (line : CommandLine) (outcome : Outcome) : Action RunError Int64 := do
  let s ← Action.setting
  Action.setFiles outcome.files
  if s.options.verbose then Action.report (.output (Text.Utf8.decodeLossy outcome.output))
  exitCode line outcome.ending

/-- Starts a process and waits for its exit code. -/
def launch (line : CommandLine) (directory : Path) : Action RunError Int64 := do
  let s ← Action.setting
  match line.arguments with
  | [] => .fail (.processSpawn "[]" "no program given")
  | program :: arguments =>
    Action.record (.launched .command s.file.path line directory)
    let w ← Action.world
    conclude line
      (s.host.launch { program, arguments, directory, timeout := s.options.timeout } w.files)

/-- Runs a process, or reports it in a dry run, and tells whether it succeeded. -/
def spawn (j : Job) (line : CommandLine) : Action RunError Bool := do
  let s ← Action.setting
  let directory := line.directory.getD s.options.workingDirectory
  if s.options.dryRun then
    Action.report (.dryCommand j.heading line directory)
    return true
  else
    Action.report (.entryOpened j.label s.options.verbose)
    -- the entry is closed if its process fails, and left open if its exit code cannot be judged
    let code ← (launch line directory).onFailure
      (Action.report (.entryClosed false s.options.verbose))
    let success ← judge j code
    Action.report (.entryClosed success s.options.verbose)
    return success

/-- Runs one entry and tells whether it succeeded. -/
def runEntry (j : Job) : Value → Action RunError Bool
  | .bool b => do
    let s ← Action.setting
    if s.options.dryRun then Action.report (.dryBoolean j.heading b)
    else
      Action.report (.entryOpened j.label s.options.verbose)
      Action.report (.entryClosed b s.options.verbose)
    return b
  | .command line => spawn j line
  | v => .fail (.unsupportedResultType v.typeName)

/-- Runs entries in order up to the first that ends the command, and tells whether all that were run
succeeded. -/
def runEntries (j : Job) : List Value → Action RunError Bool
  | [] => pure true
  | e :: es => do
    let success ← runEntry j e
    let s ← Action.setting
    Action.record (.judged s.file.path e success)
    if !success && s.options.haltOnErrors then return false
    -- a halt is only looked for after an entry, so the first one is run in any case
    if (← Action.haltCode?).isSome then return success
    let others ← runEntries j es
    return success && others

def entries (v : Value) : List Value := v.flatten.filter fun e => !e.isBlank

/-- Runs a command and tells whether it succeeded. -/
def run [Evaluator] (j : Job) (scope : Bindings) : Action RunError Bool := do
  let s ← Action.setting
  Action.record (.rendering s.file.path j.command.command)
  let v ← (Evaluator.render j.command.command scope).mapError .evaluation
  Action.record (.rendered s.file.path v)
  runEntries j (entries v)

end DirectiveRunner.Command
