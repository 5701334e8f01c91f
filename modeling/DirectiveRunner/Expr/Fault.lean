/-!
# Faults of expressions

Everything that can go wrong while an expression is read or evaluated, each with its text.
-/

namespace DirectiveRunner

/-- Why an expression could not be read or evaluated. -/
inductive EvalError where
  /-- The text is no expression. -/
  | malformed (message : String)
  | unknownIdentifier (name : String)
  | unknownFunction (name : String)
  /-- A value has the wrong type, or an integer does not fit. -/
  | wrongType (message : String)
  | helper (function : String) (message : String)
  /-- A helper was given a pattern that is no regular expression. -/
  | badPattern (function : String)
  /-- The expression itself raised an error. -/
  | raised (message : String)
deriving DecidableEq, Repr

namespace EvalError

def text : EvalError → String
  | malformed m => "Syntax error: " ++ m
  | unknownIdentifier n => "Unknown variable '" ++ n ++ "'."
  | unknownFunction n => "Unknown function '" ++ n ++ "'."
  | wrongType m => "Type error: " ++ m
  | helper f m => "Function '" ++ f ++ "' failed: " ++ m
  | badPattern f => "Function '" ++ f ++ "' failed: <regex>"
  | raised m => m

end EvalError

end DirectiveRunner
