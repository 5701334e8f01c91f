import DirectiveRunner.Path
import DirectiveRunner.Text.Letter
/-!
# Expanding paths

A path in a configuration may name environment variables, `$NAME` or `${NAME}`, the latter
with a value after `:-` for the case that there is no such variable, and it may start with `~` for the
home directory. Two dollar signs stand for one, and a dollar sign that nothing follows for itself. A
tilde that comes from a variable is no home directory.
-/

namespace DirectiveRunner.Expansion

def isNameChar (c : Char) : Bool := Text.isAlphanumeric c || c = '_'

/-- A variable between braces: its name, and its value if it does not exist. -/
def splitBraced (body : List Char) : List Char × Option (List Char) :=
  match Text.breakOn? [':', '-'] body with
  | some (name, otherwise) => if name.isEmpty then (body, none) else (name, some otherwise)
  | none => (body, none)

/-- The text with its variables replaced, or the name of one that does not exist; `steps` is at least
the length of the text. -/
def replaceVariables (valueOf? : String → Option String) :
    (steps : Nat) → List Char → Except String (List Char)
  | 0, _ => .ok []
  | _, [] => .ok []
  | steps + 1, '$' :: '{' :: rest =>
    match Text.breakOn? ['}'] rest with
    | none => do return '$' :: '{' :: (← replaceVariables valueOf? steps rest)
    | some (body, rest) =>
      let (name, otherwise) := splitBraced body
      match (valueOf? (.ofList name)).map String.toList <|> otherwise with
      | some value => do return value ++ (← replaceVariables valueOf? steps rest)
      | none => .error (.ofList name)
  | steps + 1, '$' :: '$' :: rest => do return '$' :: (← replaceVariables valueOf? steps rest)
  | steps + 1, '$' :: rest =>
    let name := rest.takeWhile isNameChar
    if name.isEmpty then do return '$' :: (← replaceVariables valueOf? steps rest)
    else
      match valueOf? (.ofList name) with
      | some value =>
        do return value.toList ++ (← replaceVariables valueOf? steps (rest.dropWhile isNameChar))
      | none => .error (.ofList name)
  | steps + 1, c :: rest => do return c :: (← replaceVariables valueOf? steps rest)

/-- The text with the home directory instead of a leading `~`. -/
def replaceHome (home : Option String) : List Char → List Char
  | '~' :: rest =>
    match home, rest with
    | some dir, [] => dir.toList
    | some dir, '/' :: rest => dir.toList ++ '/' :: rest
    | _, rest => '~' :: rest
  | cs => cs

/-- The expanded text, or the name of a variable that does not exist. -/
def expand (valueOf? : String → Option String) (raw : String) : Except String String := do
  let cs := raw.toList
  let replaced ← replaceVariables valueOf? cs.length cs
  -- the tilde is looked for in the text as it is written, and not in what a variable stands for
  if cs.head? = some '~' then return .ofList (replaceHome (valueOf? "HOME") replaced)
  else return .ofList replaced

/-- The expanded path, taken from a directory if it is relative. -/
def expandPath (valueOf? : String → Option String) (directory : Path) (raw : String) :
    Except String Path := do
  return directory.join (← expand valueOf? raw)

end DirectiveRunner.Expansion
