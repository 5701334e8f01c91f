import DirectiveRunner.Rule.Load
import DirectiveRunner.Run.Binding
import DirectiveRunner.Run.Command
import DirectiveRunner.Run.Condition
import DirectiveRunner.Status
/-!
# Executing directives

A directive is executed by binding the arguments of its rule, asking whether it is run, and running the
commands of the rule in rounds until it is not to be repeated. A halt of the current file ends the
directive with the status of the halt: before it starts, after the arguments are bound and the guard was
asked, after each command, and after the question whether there is another round.
-/

namespace DirectiveRunner.Execution

variable [Evaluator]

/-- Where some commands of a directive leave it. -/
inductive Progress where
  /-- The directive goes on; its commands have this status so far. -/
  | goesOn (status : Status)
  | ended (status : Status)
deriving DecidableEq, Repr

/-- The status of the current file if it is halted, which is reported. -/
def stopped? : Action RunError (Option Status) := do
  match ← Action.haltCode? with
  | none => return none
  | some code =>
    Action.report (.halted code)
    return some (.ofHaltCode code)

/-- Goes on with a status unless the current file is halted. -/
def progress (status : Status) : Action RunError Progress := do
  match ← stopped? with
  | some terminal => return .ended terminal
  | none => return .goesOn status

/-- Halts the current file because a command failed. -/
def haltAfterFailure : Action RunError Progress := do
  Action.halt (Int64.ofNat Status.externalCallFailed.exitCode)
  return .ended .externalCallFailed

/-- Runs one command of a rule, when the commands before it have the given status. -/
def runCommand (r : Rule) (conditional : Conditional) (scope : Bindings) (status : Status)
    (command : RuleCommand) : Action RunError Progress := do
  let success ← Command.run { rule := r, command, conditional } scope
  Action.record (.finished command success)
  let s ← Action.setting
  if success then progress status
  else if s.options.haltOnErrors then haltAfterFailure
  else progress .externalCallFailed

/-- Runs commands of a rule in order up to the first that ends the directive. -/
def runCommands (r : Rule) (conditional : Conditional) (scope : Bindings) (status : Status) :
    List RuleCommand → Action RunError Progress
  | [] => pure (.goesOn status)
  | command :: rest => do
    match ← runCommand r conditional scope status command with
    | .goesOn status => runCommands r conditional scope status rest
    | .ended terminal => return .ended terminal

/-- Runs the commands of a rule once. The directive goes on if it is to be repeated. -/
def round (r : Rule) (d : Directive) (scope : Bindings) (number : UInt32) (status : Status) :
    Action RunError Progress := do
  Action.record (.round number)
  match ← runCommands r d.conditional scope status r.commands with
  | .ended terminal => return .ended terminal
  | .goesOn status =>
    -- the condition may halt the file itself, so the halt is looked for after it
    let again ← Condition.repeats scope d.conditional
    match ← stopped? with
    | some terminal => return .ended terminal
    | none => return if again then .goesOn status else .ended status

/-- Runs the commands of a rule, and again as long as the directive is to be repeated; after this round
there may be `left` more. -/
def rounds (r : Rule) (d : Directive) (scope : Bindings) (number : UInt32) (status : Status)
    (left : Nat) : Action RunError Status := do
  match ← round r d scope number status with
  | .ended terminal => return terminal
  | .goesOn status =>
    match left with
    | 0 => .fail (.loopBoundExceeded d.identifier (← Action.setting).options.maxLoops)
    | left + 1 => rounds r d scope (number + 1) status left

def executeRule (r : Rule) (d : Directive) : Action RunError Status := do
  let scope ← Binding.bind r d
  -- the guard is asked even if an argument has halted the file, but then its answer does not count
  let allowed ← Condition.allows scope d.conditional
  match ← stopped? with
  | some terminal => return terminal
  | none =>
    if allowed then
      rounds r d scope 1 .processing ((← Action.setting).options.maxLoops.toNat - 1)
    else return .processing

def executeFrom (ruleFile : Path) (d : Directive) : Action RunError Status := do
  let w ← Action.world
  let r ← .ofExcept (Rule.load w.files ruleFile d.identifier)
  executeRule r d

/-- Executes a directive. In a file that is halted already, nothing is done. -/
def execute (d : Directive) : Action RunError Status := do
  match ← Action.haltCode? with
  | some code => return .ofHaltCode code
  | none =>
    let s ← Action.setting
    Action.record (.executing s.file.path d.identifier)
    let w ← Action.world
    let ruleFile ← .ofExcept (Rule.resolve w.files d.identifier s.options.rulePaths)
    (executeFrom ruleFile d).mapError (.within d.identifier ruleFile)

/-- What holds of ending, of failing at the bound and of a round followed by what it holds of, holds of
the rounds of a directive. -/
theorem rounds_of_round {r : Rule} {d : Directive} {scope : Bindings}
    {P : Action RunError Status → Prop}
    (after : ∀ number status next, (∀ p, P (next p)) → P (round r d scope number status >>= next))
    (ended : ∀ terminal, P (pure terminal))
    (exceeded : P (Action.setting >>= fun s =>
      .fail (.loopBoundExceeded d.identifier s.options.maxLoops)))
    (left : Nat) (number : UInt32) (status : Status) : P (rounds r d scope number status left) := by
  induction left generalizing number status with
  | zero =>
    rw [rounds]
    refine after number status _ fun p => ?_
    cases p with
    | ended terminal => exact ended terminal
    | goesOn status => exact exceeded
  | succ left ih =>
    rw [rounds]
    refine after number status _ fun p => ?_
    cases p with
    | ended terminal => exact ended terminal
    | goesOn status => exact ih (number + 1) status

/-- In a halted file a directive has the status of the halt and leaves no trace. -/
theorem execute_of_halted {s : Setting} {w : World} {code : Int64}
    (h : w.session.haltCode? s.file.path = some code) (d : Directive) :
    (execute d).run s w = (.ok (.ofHaltCode code), w) := by
  rw [execute, Action.run_bind, Action.run_haltCode?, h]
  rfl

end DirectiveRunner.Execution
