import DirectiveRunner.Machine.Tool
/-!
# Scripts

A small shell: commands in sequence, or under the condition that the one before succeeded or failed,
with quoting, variables and redirections. What it cannot read it refuses as a whole.
-/

namespace DirectiveRunner.Machine.Shell

inductive Part where
  | text (cs : List Char)
  /-- The value of a variable. -/
  | variable (name : List Char)
deriving DecidableEq, Repr

structure Word where
  parts : List Part := []
  /-- Whether any part of it is quoted. -/
  quoted : Bool := false
deriving DecidableEq, Repr

namespace Word

def add (w : Word) (cs : List Char) : Word := { w with parts := w.parts ++ [.text cs] }

def addVariable (w : Word) (name : List Char) : Word :=
  { w with parts := w.parts ++ [.variable name] }

/-- Whether there is anything of the word. -/
def isSome (w : Word) : Bool := !w.parts.isEmpty || w.quoted

/-- The number that a word is, if it is all digits. -/
def number? (w : Word) : Option Nat :=
  if w.quoted then none
  else do
    let texts ← w.parts.mapM fun
      | .text cs => some cs
      | .variable _ => none
    Text.ofDigits? 10 texts.flatten

end Word

/-- Where the output of a command goes. -/
inductive Redirection where
  /-- To a file that is emptied before. -/
  | write
  /-- To the end of a file. -/
  | append
  /-- It comes from a file. -/
  | read
  /-- To where another output goes. -/
  | copy
deriving DecidableEq, Repr

/-- How a command follows the one before. -/
inductive Link where
  | always
  /-- If the one before succeeded. -/
  | ifGood
  /-- If the one before failed. -/
  | ifBad
deriving DecidableEq, Repr

inductive Token where
  | word (w : Word)
  /-- A redirection of the output of a number; its target is the next word. -/
  | redirect (output : Option Nat) (r : Redirection)
  /-- The end of a command. -/
  | link (l : Link)
deriving DecidableEq, Repr

def isNameChar (c : Char) : Bool := c.isAlphanum || c = '_'

/-- Reads a variable after its dollar sign. -/
def readVariable : List Char → Option (List Char × List Char)
  | '{' :: cs =>
    let name := cs.takeWhile isNameChar
    match name, cs.drop name.length with
    | _ :: _, '}' :: rest => some (name, rest)
    | _, _ => none
  | '?' :: cs => some (['?'], cs)
  | cs =>
    let name := cs.takeWhile isNameChar
    if name.isEmpty then some ([], cs) else some (name, cs.drop name.length)

/-- Reads the rest of a text between double quotes into a word. -/
def readDoubleQuoted : (steps : Nat) → Word → List Char → Option (Word × List Char)
  | 0, _, _ | _, _, [] => none
  | _ + 1, w, '"' :: cs => some (w, cs)
  | steps + 1, w, '\\' :: c :: cs =>
    if c = '\n' then readDoubleQuoted steps w cs
    else if c ∈ ['$', '"', '\\', Char.ofNat 96] then readDoubleQuoted steps (w.add [c]) cs
    else readDoubleQuoted steps (w.add ['\\', c]) cs
  | steps + 1, w, '$' :: cs =>
    match readVariable cs with
    | none => none
    | some ([], rest) => readDoubleQuoted steps (w.add ['$']) rest
    | some (name, rest) => readDoubleQuoted steps (w.addVariable name) rest
  | steps + 1, w, c :: cs =>
    if c = Char.ofNat 96 then none else readDoubleQuoted steps (w.add [c]) cs

/-- The tokens of a word that ends. -/
def ended (w : Word) : List Token := if w.isSome then [.word w] else []

/-- The tokens of a word that ends at a redirection, which it may be the number of. -/
def redirected (w : Word) (r : Redirection) : List Token :=
  match w.number? with
  | some n => [.redirect (some n) r]
  | none => ended w ++ [.redirect none r]

/-- The tokens of a script, the last word of which is `w` so far. -/
def tokens? : (steps : Nat) → Word → List Char → Option (List Token)
  | 0, w, _ | _, w, [] => some (ended w)
  | steps + 1, w, '\'' :: cs =>
    match Text.breakOn? ['\''] cs with
    | some (inside, rest) => tokens? steps { w.add inside with quoted := true } rest
    | none => none
  | steps + 1, w, '"' :: cs => do
    let (w, rest) ← readDoubleQuoted steps { w with quoted := true } cs
    tokens? steps w rest
  | steps + 1, w, '\\' :: '\n' :: cs => tokens? steps w cs
  | steps + 1, w, '\\' :: c :: cs => tokens? steps { w.add [c] with quoted := true } cs
  | steps + 1, w, '$' :: cs =>
    match readVariable cs with
    | none => none
    | some ([], rest) => tokens? steps (w.add ['$']) rest
    | some (name, rest) => tokens? steps (w.addVariable name) rest
  | steps + 1, w, '>' :: '>' :: cs => do return redirected w .append ++ (← tokens? steps {} cs)
  | steps + 1, w, '>' :: '&' :: cs => do return redirected w .copy ++ (← tokens? steps {} cs)
  | steps + 1, w, '>' :: '|' :: cs => do return redirected w .write ++ (← tokens? steps {} cs)
  | steps + 1, w, '>' :: cs => do return redirected w .write ++ (← tokens? steps {} cs)
  | steps + 1, w, '<' :: cs => do return redirected w .read ++ (← tokens? steps {} cs)
  | steps + 1, w, '&' :: '&' :: cs => do return ended w ++ .link .ifGood :: (← tokens? steps {} cs)
  | steps + 1, w, '|' :: '|' :: cs => do return ended w ++ .link .ifBad :: (← tokens? steps {} cs)
  | steps + 1, w, ';' :: cs => do return ended w ++ .link .always :: (← tokens? steps {} cs)
  | steps + 1, w, '\n' :: cs => do return ended w ++ .link .always :: (← tokens? steps {} cs)
  | steps + 1, w, c :: cs =>
    if c = ' ' || c = '\t' then do return ended w ++ (← tokens? steps {} cs)
    else if c = '#' && !w.isSome then tokens? steps w (cs.dropWhile (· ≠ '\n'))
    else if c ∈ ['|', '&', '(', ')', Char.ofNat 96] then none
    else tokens? steps (w.add [c]) cs

structure SimpleCommand where
  words : List Word := []
  /-- Its redirections, each with its output and target. -/
  redirections : List (Option Nat × Redirection × Word) := []
deriving DecidableEq, Repr

def SimpleCommand.isSome (c : SimpleCommand) : Bool :=
  !c.words.isEmpty || !c.redirections.isEmpty

/-- The commands of a script, of which `c` is read so far. -/
def commands? (link : Link) (c : SimpleCommand) :
    List Token → Option (List (Link × SimpleCommand))
  | [] => if c.isSome then some [(link, c)] else if link = .always then some [] else none
  | .word w :: ts => commands? link { c with words := c.words ++ [w] } ts
  | .redirect output r :: .word w :: ts =>
    commands? link { c with redirections := c.redirections ++ [(output, r, w)] } ts
  | .redirect _ _ :: _ => none
  | .link next :: ts =>
    if c.isSome then do return (link, c) :: (← commands? next {} ts)
    else if next = .always then commands? link c ts
    else none

/-- A running script. -/
structure State where
  process : Running
  /-- The exit code of the last command. -/
  code : UInt8 := 0
  ended : Bool := false

/-- What a script can use. -/
structure Tools where
  /-- The program of a name. -/
  find : String → Option Tool
  /-- The environment variables. -/
  valueOf? : String → Option String

namespace State

def expand (t : Tools) (s : State) (w : Word) : String :=
  .ofList (w.parts.flatMap fun
    | .text cs => cs
    | .variable ['?'] => (showNat s.code.toNat).toList
    | .variable name => ((t.valueOf? (.ofList name)).getD "").toList)

/-- The texts of some words; a word that is not quoted and empty stands for nothing. -/
def expandAll (t : Tools) (s : State) (ws : List Word) : List String :=
  ws.filterMap fun w =>
    let text := s.expand t w
    if text.isEmpty && !w.quoted then none else some text

/-- Opens the file of a redirection: empties it, or makes it if it does not exist, or fails. -/
def openTarget (t : Tools) (s : State) (r : Redirection) (w : Word) : Option State :=
  let path := s.process.path (s.expand t w)
  let opened (files : Except FileFailure FileTree) : Option State :=
    files.toOption.map fun files => { s with process := { s.process with files := files } }
  match r with
  | .write => opened (s.process.files.write path .empty)
  | .append => opened (s.process.files.append path .empty)
  | .read => if (s.process.files.find path).toOption.isSome then some s else none
  | .copy => some s

/-- The file that the output goes to; nothing is the output of the script. -/
def outputFile (t : Tools) (s : State) (c : SimpleCommand) : Option (Option Path) :=
  c.redirections.foldl (fun target (output, r, w) =>
    match output.getD 1, r with
    | 1, .write | 1, .append => some (some (s.process.path (s.expand t w)))
    | 1, .copy => some none
    | _, _ => target) none

def finish (s : State) (code : UInt8) : State := { s with code := code, ended := true }

/-- The exit code that a script asks for. -/
def exitCode (s : State) : List String → UInt8
  | [] => s.code
  | n :: _ => ((Text.ofDigits? 10 n.toList).map UInt8.ofNat).getD 2

def runWords (t : Tools) (s : State) : List String → State
  | [] => { s with code := 0 }
  | "exit" :: arguments => s.finish (s.exitCode arguments)
  | name :: arguments =>
    match t.find name with
    | none => { s with code := 127 }
    | some tool =>
      let (code, process) := tool arguments s.process
      { s with process, code }

def runCommand (t : Tools) (s : State) (c : SimpleCommand) : State :=
  match c.redirections.foldlM (fun s (_, r, w) => s.openTarget t r w) s with
  | none => if c.words.isEmpty then s.finish 2 else { s with code := 2 }
  | some opened =>
    match s.outputFile t c with
    | none => opened.runWords t (s.expandAll t c.words)
    | some target =>
      let before := opened.process.output
      let quiet := { opened with process := { opened.process with output := [] } }
      let done := quiet.runWords t (s.expandAll t c.words)
      let files :=
        match target with
        | none => done.process.files
        | some path =>
          ((done.process.files.append path ⟨done.process.output.toArray⟩).toOption).getD
            done.process.files
      { done with process := { done.process with files := files, output := before } }

/-- Whether a command follows the one before. -/
def follows (s : State) : Link → Bool
  | .always => true
  | .ifGood => s.code = 0
  | .ifBad => s.code ≠ 0

/-- Runs commands in order until the script ends or has run too long. -/
def runAll (t : Tools) (s : State) : List (Link × SimpleCommand) → State
  | [] => s
  | (link, c) :: cs =>
    if s.ended || s.process.isOver then s
    else if s.follows link then (s.runCommand t c).runAll t cs
    else s.runAll t cs

end State

def runScript (t : Tools) (script : String) (p : Running) : UInt8 × Running :=
  let cs := script.toList
  match (tokens? (cs.length + 1) {} cs).bind (commands? .always {}) with
  | none => (2, p)
  | some commands =>
    let s := State.runAll t { process := p } commands
    (s.code, s.process)

/-- The shell: it runs the script it is given, and nothing without one. -/
def shell (t : Tools) : Tool
  | [], p => (0, p)
  | "-c" :: script :: _, p => runScript t script p
  | _, p => (2, p)

end DirectiveRunner.Machine.Shell
