import DirectiveRunner.Directive.Directive
import DirectiveRunner.Expr.Fault
import DirectiveRunner.Files.Failure
/-!
# Errors of a run

Everything that can end the processing of a file, each with its text. An error that comes up while a
rule is carried out is put `inRule`, which adds the rule and the directory of its file.
-/

namespace DirectiveRunner

/-- What is wrong with a rule file. -/
inductive RuleProblem where
  | unreadable (reason : FileFailure)
  | notARule
  /-- It is a rule of another name. -/
  | wrongIdentifier (found wanted : String)
  | noCommands
  /-- It declares the argument that every directive has. -/
  | reservedArgument
  | duplicateArgument (identifier : String)
deriving DecidableEq, Repr

def RuleProblem.text : RuleProblem → String
  | unreadable .notText | notARule => "<parser>"
  | unreadable reason => reason.text
  | wrongIdentifier found wanted =>
    "the rule identifier '" ++ found ++ "' does not match the directive '" ++ wanted ++ "'"
  | noCommands => "the rule has no commands"
  | reservedArgument =>
    "'" ++ referenceKey ++ "' is reserved and cannot be declared as an argument"
  | duplicateArgument identifier => "the argument '" ++ identifier ++ "' is declared twice"

/-- What is wrong with a directive. -/
inductive DirectiveProblem where
  /-- It continues a directive, but there is none before it. -/
  | orphan
  | badForm (text : String)
  | badYaml
  | notAMap (found : String)
  /-- It sets the parameter that is attached to every directive. -/
  | reservedParameter
  /-- Its list of files is no list. -/
  | badFiles
  /-- Its list of files holds something else than names. -/
  | badFileName
deriving DecidableEq, Repr

def DirectiveProblem.text : DirectiveProblem → String
  | orphan => "a continuation must follow a directive"
  | badForm t => "'" ++ t ++ "' is not a valid directive"
  | badYaml => "<yaml>"
  | notAMap found => "parameters must be a map, found a " ++ found
  | reservedParameter => "'" ++ referenceKey ++ "' is a reserved parameter"
  | badFiles => "'" ++ filesKey ++ "' must be a non-empty list of file names"
  | badFileName => "'" ++ filesKey ++ "' entries must be file names"

/-- The template of an argument that was rendered. -/
inductive ArgumentPart where
  | flag
  | default
deriving DecidableEq, Repr

def ArgumentPart.name : ArgumentPart → String
  | flag => "flag"
  | default => "default"

/-- Why a file could not be processed. -/
inductive RunError where
  | ruleNotFound (identifier : String) (paths : List Path)
  /-- A directive has parameters that the rule does not declare. -/
  | unknownArgument (keys : List String)
  | missingRequiredArgument (identifier : String)
  /-- A template of an argument could not be rendered. -/
  | argumentEvaluation (identifier : String) (part : ArgumentPart) (source : EvalError)
  /-- A directive would be repeated too often. -/
  | loopBoundExceeded (identifier : String) (maxLoops : UInt32)
  | nonBooleanExitCheck (found : String)
  /-- A command yields something that cannot be run. -/
  | unsupportedResultType (found : String)
  | ruleParse (path : Path) (problem : RuleProblem)
  | processTimeout (command : String) (millis : Nat)
  | processSpawn (command : String) (message : String)
  | directiveParse (line : Nat) (problem : DirectiveProblem)
  /-- An expression failed. -/
  | evaluation (source : EvalError)
  | fileNotFound (name : String)
  | io (path : Path) (reason : FileFailure)
  /-- An error came up while a rule was carried out. -/
  | inRule (identifier : String) (location : Path) (source : RunError)
deriving DecidableEq, Repr

namespace RunError

def text : RunError → String
  | ruleNotFound identifier paths =>
    "I could not find a rule named '" ++ identifier ++ "' in the rule paths: " ++
      joined ", " (paths.map fun p => "'" ++ p.text ++ "'")
  | unknownArgument keys => "I found unknown arguments for this rule: " ++ joined ", " keys
  | missingRequiredArgument identifier =>
    "The argument '" ++ identifier ++ "' is required but it was not provided."
  | argumentEvaluation identifier part source =>
    "Failed to evaluate the " ++ part.name ++ " of argument '" ++ identifier ++ "': " ++ source.text
  | loopBoundExceeded identifier maxLoops =>
    "The directive '" ++ identifier ++ "' reached the maximum of " ++ showNat maxLoops.toNat ++
      " loops."
  | nonBooleanExitCheck found =>
    "The exit expression must yield a boolean, found a " ++ found ++ "."
  | unsupportedResultType found =>
    "A command must yield a boolean or a command, found a " ++ found ++ "."
  | ruleParse path problem =>
    "The rule file '" ++ path.text ++ "' is invalid: " ++ problem.text
  | processTimeout command millis =>
    "The command " ++ command ++ " timed out after " ++ showNat millis ++ " ms."
  | processSpawn command message =>
    "The command " ++ command ++ " could not be started: " ++ message
  | directiveParse line problem =>
    "Invalid directive at line " ++ showNat line ++ ": " ++ problem.text
  | evaluation source => source.text
  | fileNotFound name => "I could not find the file '" ++ name ++ "'."
  | io path reason => "I/O error on '" ++ path.text ++ "': " ++ reason.text
  | inRule identifier location source =>
    "[" ++ identifier ++ "] (" ++ location.text ++ ") " ++ source.text

/-- Puts an error into the rule that is carried out; one that says which rule it belongs to, or that
there is no rule, stays as it is. -/
def within (identifier : String) (ruleFile : Path) : RunError → RunError
  | ruleNotFound i paths => ruleNotFound i paths
  | inRule i location source => inRule i location source
  | e => inRule identifier (ruleFile.parent?.getD ruleFile) e

/-- The error without the rule it is in. -/
def root : RunError → RunError
  | inRule _ _ source => source.root
  | e => e

end RunError

end DirectiveRunner
