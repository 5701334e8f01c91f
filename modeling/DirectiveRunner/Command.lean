import DirectiveRunner.Path
import DirectiveRunner.Text.ShellWords
/-!
# Command lines

A command line is a program with its arguments and, if it does not run in the working directory of
the run, the directory it runs in.
-/

namespace DirectiveRunner

/-- A command that has not been started. -/
structure CommandLine where
  /-- The program and its arguments. -/
  arguments : List String
  /-- The directory to run in instead of the working directory. -/
  directory : Option Path := none
deriving DecidableEq, Repr, Inhabited

namespace CommandLine

/-- The words of a command, quoted where a shell needs it, in brackets. -/
def text (c : CommandLine) : String :=
  let words := c.arguments.map String.toList
  .ofList (['['] ++ (Text.quoteWords? words).getD (Text.joinWith [' '] words) ++ [']'])

end CommandLine

end DirectiveRunner
