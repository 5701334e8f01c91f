import DirectiveRunner.Machine.Format
import DirectiveRunner.Run.Host
import DirectiveRunner.Text.Lines
/-!
# Tools

Small programs as functions: a tool takes its arguments and the process it runs in to an exit code and
the process as it leaves it. A process knows how long it has run, so that one can be stopped in time.
-/

namespace DirectiveRunner.Machine

structure Running where
  files : FileTree
  directory : Path
  /-- What it has printed. -/
  output : List UInt8 := []
  /-- For how many milliseconds it has run. -/
  clock : Nat := 1
  /-- After how many milliseconds it is killed. -/
  limit : Option Nat := none

namespace Running

def print (p : Running) (bs : List UInt8) : Running := { p with output := p.output ++ bs }

def wait (p : Running) (millis : Nat) : Running := { p with clock := p.clock + millis }

/-- Whether the process has run too long. -/
def isOver (p : Running) : Bool := p.limit.any (· < p.clock)

/-- A path as the process means it. -/
def path (p : Running) (name : String) : Path :=
  if name.isEmpty then ⟨""⟩ else p.directory.join name

end Running

abbrev Tool := List String → Running → UInt8 × Running

/-- A program that does nothing but end with an exit code. -/
def endWith (code : UInt8) : Tool := fun _ p => (code, p)

/-- Whether an argument is an option with one of some letters only. -/
def isOption (letters : String) (argument : String) : Bool :=
  match argument.toList with
  | '-' :: c :: cs => (c :: cs).all (· ∈ letters.toList)
  | _ => false

/-- Prints its arguments with blanks between them and a line feed behind them, escapes replaced. -/
def echo : Tool := fun arguments p =>
  let (arguments, final) : List String × List UInt8 :=
    match arguments with
    | "-n" :: rest => (rest, [])
    | rest => (rest, [10])
  let cs := (joined " " arguments).toList
  let (bs, stopped) := unescape cs.length cs
  (0, p.print (bs ++ if stopped then [] else final))

def printTool : Tool
  | [], p => (1, p)
  | "--" :: format :: arguments, p | format :: arguments, p =>
    let printed := printFormat format arguments
    (if printed.failed then 1 else 0, p.print printed.bytes)

def printDirectory : Tool := fun _ p =>
  match p.files.canonical p.directory with
  | .ok dir => (0, p.print (bytesOf (dir.chars ++ ['\n'])))
  | .error _ => (1, p)

/-- The milliseconds in a unit of time. -/
def millisIn? : List Char → Option Nat
  | [] | ['s'] => some 1000
  | ['m'] => some 60000
  | ['h'] => some 3600000
  | ['d'] => some 86400000
  | _ => none

/-- The milliseconds of a time such as `1.5` or `2m`. -/
def duration? (s : String) : Option Nat := do
  let cs := s.toList
  let whole := cs.takeWhile (Text.isDigitOf 10)
  let cs := cs.drop whole.length
  let (fraction, cs) :=
    match cs with
    | '.' :: cs => (cs.takeWhile (Text.isDigitOf 10), cs.dropWhile (Text.isDigitOf 10))
    | cs => ([], cs)
  let unit ← millisIn? cs
  let n ← Text.ofDigits? 10 (whole ++ fraction)
  return n * unit / Nat.pow 10 fraction.length

/-- Waits for the sum of some times. -/
def sleep : Tool
  | [], p => (1, p)
  | arguments, p =>
    match arguments.mapM duration? with
    | some times => (0, p.wait (times.foldl (· + ·) 0))
    | none => (1, p)

/-- The names right in a directory, those that start with a dot only if `all`. -/
def namesIn (files : FileTree) (l : Location) (all : Bool) : List String :=
  ((files.below l false).filterMap (·.1.getLast?)).filter fun n => all || n.toList.head? ≠ some '.'

def linesText (ls : List String) : List UInt8 := bytesOf (Text.unlines (ls.map String.toList))

/-- The files and directories that a listing is asked for. -/
structure Listing where
  files : List String := []
  /-- The names of directories with what is in them. -/
  directories : List (String × List String) := []
  /-- Whether something is missing. -/
  failed : Bool := false

/-- Lists files, and what is right in directories. -/
def list : Tool := fun arguments p =>
  let all := arguments.any fun a => isOption "1aA" a && a.toList.any (· ∈ "aA".toList)
  let names := arguments.filter fun a => !isOption "1aA" a
  let names := if names.isEmpty then ["."] else names
  let add (found : Listing) (name : String) : Listing :=
    match p.files.find (p.path name) with
    | .ok (_, .file _) => { found with files := found.files ++ [name] }
    | .ok (l, .directory) =>
      { found with directories := found.directories ++ [(name, namesIn p.files l all)] }
    | .error _ => { found with failed := true }
  let found := names.foldl add {}
  let sections :=
    (if found.files.isEmpty then [] else [linesText found.files]) ++
      found.directories.map fun (name, inside) =>
        (if names.length = 1 then [] else linesText [name ++ ":"]) ++ linesText inside
  let bs := ([10] : List UInt8).intercalate sections
  (if found.failed then 2 else 0, p.print bs)

/-- Removes files, and directories only if it is told so. -/
def remove : Tool := fun arguments p =>
  let options := arguments.filter (isOption "fvirR")
  let names := arguments.filter fun a => !isOption "fvirR" a && a ≠ "--"
  let force := options.any fun o => 'f' ∈ o.toList
  let deep := options.any fun o => o.toList.any (· ∈ "rR".toList)
  let removeOne (state : Bool × Running) (name : String) : Bool × Running :=
    let (failed, p) := state
    let path := p.path name
    let removed :=
      if p.files.isDirectory path && !deep then .error FileFailure.isDirectory
      else p.files.remove path
    match removed with
    | .ok files => (failed, { p with files := files })
    | .error .notFound | .error .notDirectory => (failed || !force, p)
    | .error _ => (true, p)
  let (failed, p) := names.foldl removeOne (names.isEmpty && !force, p)
  (if failed then 1 else 0, p)

end DirectiveRunner.Machine
