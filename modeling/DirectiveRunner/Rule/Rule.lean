/-!
# Rules

A rule declares the arguments that directives may supply and the commands they run.
-/

namespace DirectiveRunner

structure Argument where
  identifier : String
  /-- Whether a directive has to supply it. -/
  required : Bool := false
  /-- The template of its value when it is supplied. -/
  flag : Option String := none
  /-- The template of its value otherwise. -/
  default : Option String := none
deriving DecidableEq, Repr, Inhabited

structure RuleCommand where
  /-- The task it is reported as. -/
  name : Option String := none
  /-- The template that yields truth values and command lines. -/
  command : String
  /-- The expression that tells from the exit code whether a process succeeded. -/
  exit : Option String := none
deriving DecidableEq, Repr, Inhabited

structure Rule where
  /-- The name that directives use. -/
  identifier : String
  /-- The name it is reported as. -/
  name : Option String := none
  authors : List String := []
  /-- Its arguments in the order in which they are bound. -/
  arguments : List Argument := []
  /-- Its commands in the order in which they are run. -/
  commands : List RuleCommand := []
deriving DecidableEq, Repr, Inhabited

namespace Rule

/-- The name a rule is reported as. -/
def displayName (r : Rule) : String := r.name.getD r.identifier

end Rule

end DirectiveRunner
