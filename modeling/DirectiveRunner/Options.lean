import DirectiveRunner.Path
import DirectiveRunner.Regex.Read
/-!
# Options

The settings of a run, and the file types it knows. A file type ties an extension to the pattern that
the start of a comment line matches.
-/

namespace DirectiveRunner

structure FileType where
  /-- The extension without the dot. -/
  extension : String
  /-- What the start of a comment line matches. -/
  pattern : Pattern
deriving DecidableEq, Repr

namespace FileType

def texPattern : String := "^\\s*%\\s+"

def defaultExtensions : List String := ["tex", "dtx", "ltx", "drv", "ins"]

/-- The file type of an extension, if its pattern is a regular expression. -/
def compile? (extension pattern : String) (engine : Regex.Engine := .standard) : Option FileType :=
  (Pattern.compile? pattern engine).map (⟨extension, ·⟩)

/-- There is a file type if the engine accepts its pattern. -/
theorem compile?_eq_some_iff {extension pattern : String} {engine : Regex.Engine} {type : FileType} :
    compile? extension pattern engine = some type ↔
      ∃ regex, engine.compile? pattern = some regex ∧ ⟨extension, ⟨pattern, regex⟩⟩ = type := by
  simp [compile?, Pattern.compile?, Option.map_eq_some_iff]

def defaults (engine : Regex.Engine := .standard) : List FileType :=
  defaultExtensions.filterMap (compile? · texPattern engine)

end FileType

/-- A file to be processed. -/
structure ProjectFile where
  path : Path
  type : FileType
deriving DecidableEq, Repr

/-- The settings of a run. -/
structure Options where
  /-- How many times a directive may be repeated. -/
  maxLoops : UInt32 := 10
  /-- After how many milliseconds a process is killed. -/
  timeout : Option Nat := none
  /-- Whether a file is halted when a command fails. -/
  haltOnErrors : Bool := true
  /-- Whether processes are only reported. -/
  dryRun : Bool := false
  verbose : Bool := false
  /-- Whether directives are only read up to the first line that is no comment. -/
  headerOnly : Bool := false
  /-- Where rules are looked for. -/
  rulePaths : List Path := []
  /-- Where commands run. -/
  workingDirectory : Path := ⟨"."⟩
  /-- Where the checksums of files are kept between runs. -/
  reference : Option Path := none
  fileTypes : List FileType := FileType.defaults
deriving DecidableEq, Repr

end DirectiveRunner
