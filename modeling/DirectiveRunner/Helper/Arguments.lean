import DirectiveRunner.Expr.Fault
import DirectiveRunner.Value
/-!
# Arguments of helpers

How helpers take their arguments apart. Every failure names the helper and the argument, counted from
one.
-/

namespace DirectiveRunner.Helper

def failure {α : Type} (function message : String) : Except EvalError α :=
  .error (.helper function message)

def arity (function : String) (args : List Value) (least most : Nat) : Except EvalError Unit :=
  if args.length < least || most < args.length then
    let expected := if least = most then showNat least else showNat least ++ " to " ++ showNat most
    failure function ("expected " ++ expected ++ " argument(s), got " ++ showNat args.length)
  else .ok ()

def missingArgument {α : Type} (function : String) (i : Nat) : Except EvalError α :=
  failure function ("missing argument " ++ showNat (i + 1))

def wrongArgument {α : Type} (function : String) (i : Nat) (wanted : String) (found : Value) :
    Except EvalError α :=
  failure function ("argument " ++ showNat (i + 1) ++ " must be a " ++ wanted ++ ", found a " ++
    found.typeName)

/-- An argument that is a text, or an integer taken as one. -/
def textArg (function : String) (args : List Value) (i : Nat) : Except EvalError String :=
  match args[i]? with
  | some (.str s) => .ok s
  | some (.int n) => .ok (showInt n.toInt)
  | some v => wrongArgument function i "string" v
  | none => missingArgument function i

def boolArg (function : String) (args : List Value) (i : Nat) : Except EvalError Bool :=
  match args[i]? with
  | some (.bool b) => .ok b
  | some v => wrongArgument function i "boolean" v
  | none => missingArgument function i

/-- An argument that is a list, as the texts of its leaves, or a single text. -/
def textsArg (function : String) (args : List Value) (i : Nat) : Except EvalError (List String) :=
  match args[i]? with
  | some (.list items) => .ok ((Value.list items).flatten.map Value.text)
  | some (.str s) => .ok [s]
  | some v => wrongArgument function i "list" v
  | none => missingArgument function i

/-- The value of a predicate: the truth value itself, or one of two alternatives, the second of which
is the empty text if it is not given. -/
def choose (function : String) (condition : Bool) : List Value → Except EvalError Value
  | [] => .ok (.bool condition)
  | [onTrue] => .ok (if condition then onTrue else .str "")
  | [onTrue, onFalse] => .ok (if condition then onTrue else onFalse)
  | _ => failure function "expected at most two alternatives"

/-- The texts of the leaves of some values that are not blank. -/
def visibleTexts (args : List Value) : List String :=
  ((args.flatMap Value.flatten).map Value.text).filter fun s => !isBlankText s

theorem visibleTexts_not_blank {args : List Value} {s : String} (h : s ∈ visibleTexts args) :
    isBlankText s = false := by
  simpa using (List.mem_filter.1 h).2

end DirectiveRunner.Helper
