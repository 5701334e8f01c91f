import DirectiveRunner.Run.Error
import DirectiveRunner.Run.Evaluator
/-!
# Binding arguments

Before the commands of a rule are run, its arguments are bound to values. An argument that the
directive supplies takes the value of its flag, if it has one; otherwise, and if the directive does not
supply it, it takes the value of its default. What has neither is the empty text. The reference of the
directive is bound as it is.
-/

namespace DirectiveRunner.Binding

variable [Evaluator]

/-- The parameters of a directive that a rule does not declare. -/
def unknownKeys (r : Rule) (d : Directive) : List String :=
  (Dict.keys d.parameters).filter fun key =>
    key ≠ referenceKey && !r.arguments.any (·.identifier = key)

def referenceValue (d : Directive) : Value := d.reference?.getD .null

/-- What flags and defaults see: each parameter by its name, all of them as `parameters`, and the
reference. -/
def scope (d : Directive) : Bindings :=
  Dict.insert referenceKey (referenceValue d)
    (Dict.insert "parameters" (.map d.parameters) d.parameters)

def argumentValue (d : Directive) (a : Argument) : Action RunError Value :=
  let supplied := Dict.contains a.identifier d.parameters
  let rendered (part : ArgumentPart) (template : String) : Action RunError Value :=
    (Evaluator.render template (scope d)).mapError (.argumentEvaluation a.identifier part)
  if a.required && !supplied then .fail (.missingRequiredArgument a.identifier)
  else
    match supplied, a.flag, a.default with
    | true, some flag, _ => rendered .flag flag
    | _, _, some default => rendered .default default
    | _, _, none => pure (.str "")

/-- Binds some arguments after those that are already bound. -/
def bindArguments (d : Directive) (bound : Bindings) : List Argument → Action RunError Bindings
  | [] => pure bound
  | a :: as => do
    let v ← argumentValue d a
    bindArguments d (Dict.insert a.identifier v bound) as

/-- Binds the arguments of a rule to the values that a directive gives them. -/
def bind (r : Rule) (d : Directive) : Action RunError Bindings := do
  Action.record (.binding r.identifier)
  match unknownKeys r d with
  | [] => bindArguments d [(referenceKey, referenceValue d)] r.arguments
  | keys => .fail (.unknownArgument keys)

end DirectiveRunner.Binding
