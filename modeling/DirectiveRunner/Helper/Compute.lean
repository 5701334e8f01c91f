import DirectiveRunner.Helper.Arguments
import DirectiveRunner.Text.Case
/-!
# Helpers that compute

The helpers whose value depends on their arguments alone.
-/

namespace DirectiveRunner.Helper

abbrev Computation := List Value → Except EvalError Value

def trimSpaces : Computation := fun args => do
  arity "trimSpaces" args 1 1
  return .str (trimmed (← textArg "trimSpaces" args 0))

/-- A file name without directories and extension. -/
def getBasename : Computation := fun args => do
  arity "getBasename" args 1 1
  return .str ((Path.mk (← textArg "getBasename" args 0)).stem?.getD "")

def getFiletype : Computation := fun args => do
  arity "getFiletype" args 1 1
  return .str ((Path.mk (← textArg "getFiletype" args 0)).extension?.getD "")

/-- A text with `v` at every `%s`. -/
def fillIn (v : List Char) : List Char → List Char
  | '%' :: 's' :: r => v ++ fillIn v r
  | c :: r => c :: fillIn v r
  | [] => []

/-- A pattern filled in with each text of a list. -/
def replicatePattern : Computation := fun args => do
  arity "replicatePattern" args 2 2
  let pattern ← textArg "replicatePattern" args 0
  let values ← textsArg "replicatePattern" args 1
  return .list (values.map fun v => .str (.ofList (fillIn v.toList pattern.toList)))

def raise : Computation := fun args => do
  arity "throwError" args 1 1
  .error (.raised (← textArg "throwError" args 0))

/-- The visible texts of the arguments with a blank between each two. -/
def buildString : Computation := fun args => .ok (.str (joined " " (visibleTexts args)))

/-- A command of some texts, the first of which is the program. -/
def commandOf (function : String) (arguments : List String) (directory : Option Path) :
    Except EvalError Value :=
  if arguments.isEmpty then failure function "a command needs at least a program name"
  else .ok (.command ⟨arguments, directory⟩)

def getCommand : Computation := fun args => commandOf "getCommand" (visibleTexts args) none

def isEmpty : Computation := fun args => do
  arity "isEmpty" args 1 3
  choose "isEmpty" ((args.head?.map Value.isEmpty).getD true) args.tail

def isNotEmpty : Computation := fun args => do
  arity "isNotEmpty" args 1 3
  choose "isNotEmpty" (!(args.head?.map Value.isEmpty).getD true) args.tail

/-- The truth value that a value stands for. -/
def truth (function : String) : Option Value → Except EvalError Bool
  | some (.bool b) => .ok b
  | some (.int n) => .ok (n ≠ 0)
  | some (.str s) =>
    let word := String.ofList (Text.lowerAscii (Text.trim s.toList))
    if word ∈ ["yes", "true", "on", "1"] then .ok true
    else if word ∈ ["no", "false", "off", "0"] then .ok false
    else failure function ("'" ++ s ++ "' is not a valid boolean value")
  | some v => failure function ("cannot interpret a " ++ v.typeName ++ " as a boolean")
  | none => missingArgument function 0

def isTrue : Computation := fun args => do
  arity "isTrue" args 1 3
  choose "isTrue" (← truth "isTrue" args.head?) args.tail

def isFalse : Computation := fun args => do
  arity "isFalse" args 1 3
  choose "isFalse" (!(← truth "isFalse" args.head?)) args.tail

/-- Whether the one argument has a type. -/
def hasType (function type : String) : Computation := fun args => do
  arity function args 1 1
  return .bool (args.head?.any (·.typeName = type))

def containsKey : Computation := fun args => do
  arity "containsKey" args 2 2
  let key ← textArg "containsKey" args 1
  match args.head? with
  | some (.map entries) => return .bool (Dict.contains key entries)
  | some .null => return .bool false
  | some v => failure "containsKey" ("expected a map, found a " ++ v.typeName)
  | none => missingArgument "containsKey" 0

/-- The number of characters of a text, or of elements of a list or map. -/
def size : Computation := fun args => do
  arity "size" args 1 1
  match args.head? with
  | some (.str s) => return .int (Int64.ofNat s.toList.length)
  | some (.list items) => return .int (Int64.ofNat items.length)
  | some (.map entries) => return .int (Int64.ofNat entries.length)
  | some .null | none => return .int 0
  | some v => failure "size" ("a " ++ v.typeName ++ " has no size")

/-- Whether the run is on a kind of system. -/
def platform (function : String) (condition : Bool) : Computation := fun args => do
  arity function args 0 2
  choose function condition args

end DirectiveRunner.Helper
