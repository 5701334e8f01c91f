import DirectiveRunner.Rule.Rule
import DirectiveRunner.Toml.Fields
import DirectiveRunner.Toml.Read
/-!
# Rules in TOML

A rule is a document with the fields of `Rule`. An argument or a command is a table of its fields or
an array of their values in order; fields that are not known are passed over.
-/

namespace DirectiveRunner.Rule.FromToml

open Toml (Data Entries field? optional?)

def argument? (d : Data) : Option Argument := do
  let fs ← d.fields? ["identifier", "required", "flag", "default"]
  return {
    identifier := ← field? fs "identifier" Data.text? none
    required := ← field? fs "required" Data.bool? (some false)
    flag := ← optional? fs "flag" Data.text?
    default := ← optional? fs "default" Data.text? }

def command? (d : Data) : Option RuleCommand := do
  let fs ← d.fields? ["name", "command", "exit"]
  return {
    name := ← optional? fs "name" Data.text?
    command := ← field? fs "command" Data.text? none
    exit := ← optional? fs "exit" Data.text? }

def rule? (fs : Entries) : Option Rule := do
  return {
    identifier := ← field? fs "identifier" Data.text? none
    name := ← optional? fs "name" Data.text?
    authors := ← field? fs "authors" (Data.list? Data.text?) (some [])
    arguments := ← field? fs "arguments" (Data.list? argument?) (some [])
    commands := ← field? fs "commands" (Data.list? command?) (some []) }

def read? (s : String) : Option Rule := (Toml.read? s).bind rule?

end DirectiveRunner.Rule.FromToml
