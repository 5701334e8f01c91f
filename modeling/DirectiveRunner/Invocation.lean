import DirectiveRunner.Config.Config
import DirectiveRunner.Dict
import DirectiveRunner.Text.Digits
/-!
# Invocations

The arguments of the command line. A switch stands alone, an option takes one value, written after it,
after `=`, or, if the option is given by its letter, right behind the letter. Switches can share a dash.
Everything else is a file, and so is everything after `--`.

A value that stands by itself is only checked when the next argument is accepted, so an unknown argument
is reported before a bad value in front of it.
-/

namespace DirectiveRunner

/-- What is wrong with the arguments, or what is asked for instead of a run. -/
inductive UsageError where
  | helpWanted
  | versionWanted
  /-- There is no such switch or option. -/
  | unknownArgument
  /-- Arguments are given that exclude each other, or one is given twice. -/
  | conflict
  | filesMissing
  /-- The value of an option is not of the right kind. -/
  | badValue
  /-- The value of an option is missing or empty. -/
  | valueMissing
  /-- A switch is given a value. -/
  | valueUnwanted
deriving DecidableEq, Repr

def UsageError.text : UsageError → String
  | helpWanted => "Usage: [OPTIONS] <FILES>..."
  | versionWanted => "No version is known."
  | unknownArgument => "There is no such argument."
  | conflict => "The arguments cannot be used together."
  | filesMissing => "The files to process are missing."
  | badValue => "The value of an option is invalid."
  | valueMissing => "The value of an option is missing."
  | valueUnwanted => "The argument takes no value."

namespace Invocation

/-- An argument without a value. -/
inductive Switch where
  | log
  | verbose
  | silent
  | dryRun
  | header
  | help
  | version
deriving DecidableEq, Repr

/-- An argument with a value. -/
inductive Parameter where
  | timeout
  | maxLoops
  | directory
  | property
deriving DecidableEq, Repr

/-- An argument that is known by a letter and a name. -/
inductive Known where
  | switch (s : Switch)
  | parameter (p : Parameter)
deriving DecidableEq, Repr

/-- The letters and names of all known arguments. -/
def known : List (Char × String × Known) :=
  [('l', "log", .switch .log),
    ('v', "verbose", .switch .verbose),
    ('s', "silent", .switch .silent),
    ('n', "dry-run", .switch .dryRun),
    ('H', "header", .switch .header),
    ('h', "help", .switch .help),
    ('V', "version", .switch .version),
    ('t', "timeout", .parameter .timeout),
    ('m', "max-loops", .parameter .maxLoops),
    ('d', "working-directory", .parameter .directory),
    ('P', "call-property", .parameter .property)]

def ofLetter? (c : Char) : Option Known := (known.find? (·.1 = c)).map (·.2.2)

def ofName? (name : String) : Option Known := (known.find? (·.2.1 = name)).map (·.2.2)

/-- What was read so far. -/
structure Reading where
  switches : List Switch := []
  timeout : Option Nat := none
  maxLoops : Option UInt32 := none
  directory : Option String := none
  properties : List (String × String) := []
  files : List String := []
  /-- An option that is not settled yet, with its value if there is one. -/
  pending : Option (Parameter × Option String) := none
  /-- Whether everything else is a file. -/
  onlyFiles : Bool := false
deriving DecidableEq, Repr

/-- A number in decimal digits, possibly after a plus sign, that is greater than zero and at most
`limit`. -/
def positive? (limit : Nat) (s : String) : Option Nat :=
  let cs :=
    match s.toList with
    | '+' :: cs => cs
    | cs => cs
  (Text.ofDigits? 10 cs).filter fun n => 0 < n && n ≤ limit

/-- A key and a value; the key is trimmed and must not be blank. -/
def property? (s : String) : Option (String × String) :=
  match Text.breakOn? ['='] s.toList with
  | some (key, value) =>
    if Text.allBlank key then none else some (.ofList (Text.trim key), .ofList value)
  | none => none

namespace Reading

def assign (r : Reading) (p : Parameter) (value : String) : Except UsageError Reading :=
  match p with
  | .timeout =>
    if r.timeout.isSome then .error .conflict
    else
      match positive? (UInt64.size - 1) value with
      | some n => .ok { r with timeout := some n }
      | none => .error .badValue
  | .maxLoops =>
    if r.maxLoops.isSome then .error .conflict
    else
      match positive? (UInt32.size - 1) value with
      | some n => .ok { r with maxLoops := some (.ofNat n) }
      | none => .error .badValue
  | .directory =>
    if r.directory.isSome then .error .conflict
    else if value.isEmpty then .error .valueMissing
    else .ok { r with directory := some value }
  | .property =>
    match property? value with
    | some entry => .ok { r with properties := r.properties ++ [entry] }
    | none => .error .badValue

/-- Gives the pending option its value. -/
def settle (r : Reading) : Except UsageError Reading :=
  match r.pending with
  | none => .ok r
  | some (_, none) => .error .valueMissing
  | some (p, some value) => { r with pending := none }.assign p value

def turnOn (r : Reading) (s : Switch) : Except UsageError Reading := do
  let r ← r.settle
  match s with
  | .help => .error .helpWanted
  | .version => .error .versionWanted
  | s => if s ∈ r.switches then .error .conflict else .ok { r with switches := s :: r.switches }

/-- Reads a parameter with a value, or leaves it pending. -/
def takeParameter (r : Reading) (p : Parameter) : Option (List Char) → Except UsageError Reading
  | some value => do (← r.settle).assign p (.ofList value)
  | none => do return { ← r.settle with pending := some (p, none) }

/-- Reads an argument given by its name. -/
def takeName (r : Reading) (cs : List Char) : Except UsageError Reading :=
  let (name, value) :=
    match Text.breakOn? ['='] cs with
    | some (name, value) => (name, some value)
    | none => (cs, none)
  match ofName? (.ofList name), value with
  | none, _ => .error .unknownArgument
  | some (.parameter p), value => r.takeParameter p value
  | some (.switch _), some _ => .error .valueUnwanted
  | some (.switch s), none => r.turnOn s

/-- The value behind a letter, if there is one. -/
def attached? : List Char → Option (List Char)
  | [] => none
  | '=' :: cs => some cs
  | cs => some cs

/-- Reads arguments given by their letters. -/
def takeLetters (r : Reading) : List Char → Except UsageError Reading
  | [] => .ok r
  | c :: cs =>
    match ofLetter? c with
    | none => .error .unknownArgument
    | some (.switch s) => do (← r.turnOn s).takeLetters cs
    | some (.parameter p) => r.takeParameter p (attached? cs)

def takeFile (r : Reading) (file : String) : Except UsageError Reading := do
  let r ← r.settle
  return { r with files := r.files ++ [file] }

/-- Reads the value of the pending option if it has none yet, and a file otherwise. -/
def takeText (r : Reading) (s : String) : Except UsageError Reading :=
  match r.pending with
  | some (p, none) => .ok { r with pending := some (p, some s) }
  | _ => r.takeFile s

def take (r : Reading) (s : String) : Except UsageError Reading :=
  if r.onlyFiles then r.takeFile s
  else
    match s.toList with
    | ['-', '-'] => .ok { r with onlyFiles := true }
    | '-' :: '-' :: name => r.takeName name
    | ['-'] => r.takeText s
    | '-' :: letters => r.takeLetters letters
    | _ => r.takeText s

end Reading

end Invocation

structure Invocation where
  log : Bool := false
  directory : Path := ⟨"."⟩
  /-- The properties of the session in the order of their keys. -/
  properties : List (String × String) := []
  files : List String
  /-- The settings that win over the configuration. -/
  overrides : Overrides := {}
deriving DecidableEq, Repr

namespace Invocation

/-- Whether the output of processes is to be shown or hidden. -/
def Reading.verbosity (r : Reading) : Option Bool :=
  if .verbose ∈ r.switches then some true
  else if .silent ∈ r.switches then some false
  else none

def Reading.finish (r : Reading) : Except UsageError Invocation := do
  let r ← r.settle
  if .verbose ∈ r.switches && .silent ∈ r.switches then .error .conflict
  else if r.files.isEmpty then .error .filesMissing
  else
    return {
      log := .log ∈ r.switches
      directory := ⟨r.directory.getD "."⟩
      properties := Dict.ofList r.properties
      files := r.files
      overrides :=
        { maxLoops := r.maxLoops
          timeout := r.timeout
          verbose := r.verbosity
          dryRun := .dryRun ∈ r.switches
          headerOnly := .header ∈ r.switches } }

def read (arguments : List String) : Except UsageError Invocation := do
  (← arguments.foldlM Reading.take {}).finish

end Invocation

end DirectiveRunner
