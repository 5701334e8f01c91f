import DirectiveRunner.Rule.Rule
import DirectiveRunner.Yaml.Data
/-!
# Rules in YAML

A rule is a mapping of the fields of `Rule`. Where a text is wanted every scalar is one, also a number;
fields that are not known are passed over, and a known one may occur once only.
-/

namespace DirectiveRunner.Rule.FromYaml

open Yaml (Document)

/-- The text of a scalar. -/
def text? : Document → Option String
  | .scalar _ _ t => some (.ofList t)
  | _ => none

/-- The text of a scalar that may stand for nothing. -/
def optionalText? : Document → Option (Option String)
  | .scalar tag plain t =>
    if !plain then some (some (.ofList t))
    else
      match tag with
      | none => some (if t.isEmpty || Yaml.isNull t then none else some (.ofList t))
      | some tag =>
        if tag = Yaml.coreTag "null" then if Yaml.isNull t then some none else none
        else some (some (.ofList t))
  | _ => none

def bool? : Document → Option Bool
  | .scalar _ true t => Yaml.readBool? t
  | _ => none

/-- Whether a document is a place where nothing is written. -/
def isMissing : Document → Bool
  | .scalar _ plain t => plain && t.isEmpty
  | _ => false

def list? {α : Type} (f : Document → Option α) : Document → Option (List α)
  | .sequence _ items => items.mapM f
  | d => if isMissing d then some [] else none

/-- The fields of a mapping, of which the known ones occur only once. -/
def fields? (known : List String) : Document → Option (List (String × Document))
  | .mapping _ entries => do
    let fields ← entries.mapM fun e => (text? e.1).map (·, e.2)
    if known.all fun k => (fields.filter (·.1 = k)).length ≤ 1 then return fields else none
  | d => if isMissing d then some [] else none

/-- A field that is read by `f`, or has a value of its own if it is not there. -/
def field? {α : Type} (fields : List (String × Document)) (name : String)
    (f : Document → Option α) (otherwise : Option α) : Option α :=
  match fields.lookup name with
  | some d => f d
  | none => otherwise

def argument? (d : Document) : Option Argument := do
  let fs ← fields? ["identifier", "required", "flag", "default"] d
  return {
    identifier := ← field? fs "identifier" text? none
    required := ← field? fs "required" bool? (some false)
    flag := ← field? fs "flag" optionalText? (some none)
    default := ← field? fs "default" optionalText? (some none) }

def command? (d : Document) : Option RuleCommand := do
  let fs ← fields? ["name", "command", "exit"] d
  return {
    name := ← field? fs "name" optionalText? (some none)
    command := ← field? fs "command" text? none
    exit := ← field? fs "exit" optionalText? (some none) }

def rule? (d : Document) : Option Rule := do
  let fs ← fields? ["identifier", "name", "authors", "arguments", "commands"] d
  return {
    identifier := ← field? fs "identifier" text? none
    name := ← field? fs "name" optionalText? (some none)
    authors := ← field? fs "authors" (list? text?) (some [])
    arguments := ← field? fs "arguments" (list? argument?) (some [])
    commands := ← field? fs "commands" (list? command?) (some []) }

/-- The mark that a rule may start with. -/
def configTag : List Char := "!config".toList

/-- The text of a rule without the mark on its first line. -/
def withoutTag (cs : List Char) : List Char :=
  match Text.afterStart? configTag (Text.trimStart cs) with
  | some [] => []
  | some (c :: r) => if c = '\n' || c = '\r' then c :: r else cs
  | none => cs

def read? (s : String) : Option Rule := do
  match ← Yaml.load? (withoutTag s.toList) with
  | some d => rule? d
  | none => none

end DirectiveRunner.Rule.FromYaml
