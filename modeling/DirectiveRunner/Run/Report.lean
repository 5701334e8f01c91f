import DirectiveRunner.Command
import DirectiveRunner.Directive.Directive
import DirectiveRunner.Number.Binary64
import DirectiveRunner.Rule.Rule
/-!
# What is shown

Everything a run tells the user is a `Notice`, and `Notice.text` is how it is printed. The parts of an
entry, its start and its result, are notices of their own because the output of a process may stand
between them.
-/

namespace DirectiveRunner

/-- The width of a line with a result. -/
def lineWidth : Nat := 65

def resultWidth : Nat := 7

/-- The units of file sizes from a thousand bytes on. -/
def sizeUnits : List String := ["kB", "MB", "GB", "TB"]

/-- A size in one of the units, the first that leaves it below a thousand if there is one. -/
def inUnits (size : Binary64) : List String → String
  | [] => ""
  -- the largest unit is taken for everything that is larger still
  | [unit] => inUnit unit
  | unit :: units => if size.atLeast 1000 then inUnits (size.dividedBy 1000) units else inUnit unit
where
  /-- A size with one decimal. -/
  inUnit (unit : String) : String :=
    showNat (size.tenths / 10) ++ "." ++ showNat (size.tenths % 10) ++ " " ++ unit

/-- A file size in bytes or in the largest unit it reaches. -/
def humanSize (bytes : Nat) : String :=
  if bytes < 1000 then showNat bytes ++ " B"
  else
    match Binary64.nearest? bytes 1 with
    | some size => inUnits (size.dividedBy 1000) sizeUnits
    | none => ""

/-- The task and the rule that an entry is reported as. -/
structure EntryLabel where
  rule : String
  task : Option String
deriving DecidableEq, Repr

namespace EntryLabel

def of (r : Rule) (task : Option String) : EntryLabel := ⟨r.displayName, task⟩

def text (l : EntryLabel) : String := "(" ++ l.rule ++ ") " ++ l.task.getD "Unnamed task" ++ " "

end EntryLabel

/-- What a dry run says of the rule and directive of an entry. -/
structure DryHeading where
  label : EntryLabel
  authors : List String
  conditional : Conditional
deriving DecidableEq, Repr

/-- Something shown to the user. -/
inductive Notice where
  /-- A file is about to be processed. -/
  | processing (name : String) (size : Option Nat)
  | noDirectives (name : String)
  /-- An entry starts. -/
  | entryOpened (label : EntryLabel) (verbose : Bool)
  /-- An entry has ended. -/
  | entryClosed (success : Bool) (verbose : Bool)
  /-- A dry run would have started a command. -/
  | dryCommand (heading : DryHeading) (command : CommandLine) (directory : Path)
  /-- A dry run met a truth value. -/
  | dryBoolean (heading : DryHeading) (value : Bool)
  | halted (code : Int64)
  /-- A message of a rule. -/
  | message (title text : String)
  /-- What a process printed. -/
  | output (text : String)
  /-- How long a run took, in milliseconds. -/
  | totalTime (millis : Nat)
deriving DecidableEq, Repr

def repeated (n : Nat) (c : Char) : String := .ofList (List.replicate n c)

def DryHeading.text (h : DryHeading) : String :=
  "\n[DR] " ++ h.label.text ++ "\n" ++ repeated lineWidth '-' ++ "\n" ++ "Author(s): " ++
    (if h.authors.isEmpty then "no authors provided" else joined ", " h.authors) ++ "\n" ++
    "Conditional: " ++ h.conditional.text ++ "\n"

/-- A time in seconds, with two decimals. -/
def secondsText (millis : Nat) : String :=
  match (Binary64.nearest? (millis % 1000) 1000).bind (·.plus? (millis / 1000)) with
  | some seconds =>
    let (n, d) := seconds.fraction
    let hundredths := roundedQuotient (100 * n) d
    showNat (hundredths / 100) ++ "." ++
      .ofList (Text.padded 2 (Text.decimal (hundredths % 100)))
  | none => ""

namespace Notice

def text : Notice → String
  | processing name size =>
    "Processing '" ++ name ++ "' (size: " ++ (size.map humanSize).getD "unknown" ++
      "), please wait.\n"
  | noDirectives name => "I could not find any directives in '" ++ name ++ "'.\n"
  | entryOpened label true => "\n" ++ label.text ++ "\n" ++ repeated lineWidth '-' ++ "\n"
  | entryOpened label false =>
    label.text ++ repeated (lineWidth - (label.text.length + resultWidth + 1)) '.' ++ " "
  | entryClosed success verbose =>
    let result := if success then "SUCCESS" else "FAILURE"
    if verbose then
      repeated lineWidth '-' ++ "\n" ++ repeated (lineWidth - resultWidth) ' ' ++ result ++ "\n"
    else result ++ "\n"
  | dryCommand heading command directory =>
    heading.text ++ "About to run: " ++ command.text ++ " @ " ++ directory.text ++ "\n"
  | dryBoolean heading value =>
    heading.text ++ "About to run a boolean check. The result is: " ++
      (if value then "true" else "false") ++ "\n"
  | halted code => "The file processing was halted by a rule (" ++ showInt code.toInt ++ ").\n"
  | message title text => "[" ++ title ++ "] " ++ text ++ "\n"
  | output text => text
  | totalTime millis => "\nTotal: " ++ secondsText millis ++ " seconds\n"

end Notice

end DirectiveRunner
