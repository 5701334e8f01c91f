import DirectiveRunner.Regex.Read
/-!
# Wildcards

A wildcard is a file name in which `*` stands for any characters and `?` for any one character. It is
matched through the regular expression that says the same (`source`).
-/

namespace DirectiveRunner.Wildcard

/-- The characters that have a meaning in regular expressions. -/
def special : List Char := "\\.+*?()|[]\x7b\x7d^$#&-~".toList

/-- How a character that stands for itself is written in a regular expression. -/
def escape (c : Char) : List Char := if c ∈ special then ['\\', c] else [c]

/-- How a character of a wildcard is written in a regular expression. -/
def translate (c : Char) : List Char :=
  if c = '*' then ['.', '*'] else if c = '?' then ['.'] else escape c

/-- The regular expression of a wildcard. -/
def source (pattern : List Char) : List Char := ['^'] ++ pattern.flatMap translate ++ ['$']

/-- The expression that a wildcard stands for. -/
def compile? (pattern : String) (engine : Regex.Engine := .standard) : Option Regex :=
  engine.compile? (.ofList (source pattern.toList))

end DirectiveRunner.Wildcard
