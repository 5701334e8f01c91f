import DirectiveRunner.Directive.Form
import DirectiveRunner.Options
import DirectiveRunner.Run.Error
import DirectiveRunner.Yaml.Data
/-!
# Extracting directives

Directives stand in the comments of a source text. A comment line whose text starts with the keyword
begins a directive, or continues the one before it if the marker `-->` follows. The gathered text is
then read as a directive. Lines that are no directive lines make no difference, except that the first
line that is no comment ends the header.
-/

namespace DirectiveRunner.Directive

/-- The keyword that introduces a directive. -/
def keyword : List Char := "arara:".toList

/-- The marker that continues a directive. -/
def continuation : List Char := "-->".toList

/-- The text of a directive gathered from its lines. -/
structure Raw where
  text : List Char
  lineNumbers : List Nat
deriving DecidableEq, Repr

def Raw.line (r : Raw) : Nat := r.lineNumbers.headD 0

/-- What a line of a source text is. -/
inductive LineKind where
  /-- No comment. -/
  | code
  /-- A comment that has nothing to do with directives. -/
  | comment
  /-- The start of a directive. -/
  | start (text : List Char)
  /-- More of the directive before. -/
  | more (text : List Char)
deriving DecidableEq, Repr

def classify (type : FileType) (line : String) : LineKind :=
  match type.pattern.regex.afterMatch? line.toList with
  | none => .code
  | some rest =>
    match Text.afterStart? keyword (Text.trimStart rest) with
    | none => .comment
    | some body =>
      let body := Text.trim body
      match Text.afterStart? continuation body with
      | some more => .more (Text.trim more)
      | none => .start body

/-- Gathers the directives of lines, the first of which has number `number`; `open?` is the directive
that may be continued. -/
def gather (headerOnly : Bool) (number : Nat) (open? : Option Raw) :
    List LineKind → Except RunError (List Raw)
  | [] => .ok open?.toList
  -- code does not end a directive: what comes after it may go on with one from before it
  | .code :: ls =>
    if headerOnly then .ok open?.toList else gather headerOnly (number + 1) open? ls
  | .comment :: ls => gather headerOnly (number + 1) open? ls
  | .start text :: ls => do
    let rs ← gather headerOnly (number + 1) (some ⟨text, [number]⟩) ls
    return open?.toList ++ rs
  | .more text :: ls =>
    match open? with
    | none => .error (.directiveParse number .orphan)
    | some r =>
      gather headerOnly (number + 1)
        (some ⟨r.text ++ ' ' :: text, r.lineNumbers ++ [number]⟩) ls

def readParameters (cs : List Char) : Except DirectiveProblem Bindings :=
  match (Yaml.read? cs).map Yaml.Data.toValue with
  | none => .error .badYaml
  | some (.map entries) => .ok entries
  | some v => .error (.notAMap v.typeName)

def ofForm (f : Form) (lineNumbers : List Nat) : Except DirectiveProblem Directive := do
  let parameters ←
    match f.parameters with
    | some cs => readParameters cs
    | none => .ok []
  if Dict.contains referenceKey parameters then .error .reservedParameter
  let conditional :=
    (f.condition.bind fun (keyword, e) => Conditional.ofKeyword? keyword (.ofList e)).getD .none
  return { identifier := .ofList f.identifier, parameters, conditional, lineNumbers }

def ofRaw (r : Raw) : Except RunError Directive :=
  let read : Except DirectiveProblem Directive :=
    match readForm? r.text with
    | some f => ofForm f r.lineNumbers
    | none => .error (.badForm (.ofList r.text))
  match read with
  | .ok d => .ok d
  | .error p => .error (.directiveParse r.line p)

/-- The directives of the lines of a source text, not yet attached to a file. -/
def extract (lines : List String) (headerOnly : Bool) (type : FileType) :
    Except RunError (List Directive) := do
  let raw ← gather headerOnly 1 none (lines.map (classify type))
  raw.mapM ofRaw

/-- The names of the files that a directive is for, if it lists files. -/
def fileNames : Value → Except DirectiveProblem (List String)
  | .list [] => .error .badFiles
  | .list items =>
    items.mapM fun
      | .str name => .ok name
      | _ => .error .badFileName
  | .str name => .ok [name]
  | _ => .error .badFiles

def withReference (d : Directive) (file : Path) : Directive :=
  { d with parameters := Dict.insert referenceKey (.str file.text) d.parameters }

/-- The copies of a directive, one for each of its files, or itself for the file it was read from. -/
def copies (file : Path) (d : Directive) : Except RunError (List Directive) :=
  match Dict.lookup filesKey d.parameters with
  | none => .ok [d.withReference file]
  | some files =>
    -- a copy does not list the files; it has one of them as its reference
    let d := { d with parameters := Dict.erase filesKey d.parameters }
    let base := file.parent?.getD ⟨"."⟩
    match fileNames files with
    | .ok names => .ok (names.map fun name => d.withReference (base.join name))
    | .error p => .error (.directiveParse d.line p)

/-- The directives of a file, attached to the files they apply to. -/
def attach (ds : List Directive) (file : Path) : Except RunError (List Directive) := do
  return (← ds.mapM (copies file)).flatten

end DirectiveRunner.Directive
