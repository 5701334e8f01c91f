import DirectiveRunner.Options
import DirectiveRunner.Run.Host
import DirectiveRunner.Run.Report
import DirectiveRunner.Run.Session
/-!
# Actions

An action of a run takes the world, that is the session, the files and the journal of what was done so
far, to a result or error and the world after it. What an action did before it failed stays done. The
options, the current file and the system around are fixed while an action runs.

The journal only grows; it is what statements about the order of events are made of.
-/

namespace DirectiveRunner

/-- Who asked for a process. -/
inductive Origin where
  /-- A command of a rule. -/
  | command
  /-- A helper in an expression. -/
  | expression
deriving DecidableEq, Repr

/-- Something done in a run. -/
inductive Event where
  | shown (n : Notice)
  /-- A process was asked for, for a file. -/
  | launched (origin : Origin) (file : Path) (command : CommandLine) (directory : Path)
  | halted (file : Path) (code : Int64)
  | stored (key : String) (value : Value)
  /-- A directive is about to be executed for a file. -/
  | executing (file : Path) (directive : String)
  /-- The arguments of a directive are about to be bound. -/
  | binding (rule : String)
  /-- A condition is about to be evaluated. -/
  | checking (expression : String)
  /-- A round of the commands of a rule starts. -/
  | round (number : UInt32)
  /-- The template of a command is about to be rendered for a file. -/
  | rendering (file : Path) (template : String)
  /-- The template of a command was rendered to a value for a file. -/
  | rendered (file : Path) (value : Value)
  /-- An exit expression is about to be evaluated. -/
  | judging (check : String)
  /-- An entry of a rendered command has succeeded or failed. -/
  | judged (file : Path) (entry : Value) (success : Bool)
  /-- A command of a rule has succeeded or failed. -/
  | finished (command : RuleCommand) (success : Bool)
deriving DecidableEq, Repr

/-- Everything an action may change. -/
structure World where
  session : Session := {}
  files : FileTree := .empty
  /-- What was done, the latest first. -/
  journal : List Event := []

namespace Event

/-- What the user sees of an event. -/
def text : Event → String
  | shown n => n.text
  | _ => ""

end Event

/-- Everything that was shown in a world, in order. -/
def World.transcript (w : World) : String := String.join (w.journal.reverse.map Event.text)

/-- Everything an action may read but not change. -/
structure Setting where
  options : Options
  /-- The file being processed. -/
  file : ProjectFile
  /-- The system around. -/
  host : Host

/-- An action that fails with an `ε` or yields an `α`. -/
def Action (ε α : Type) := Setting → World → Except ε α × World

namespace Action

variable {ε ε' α β : Type}

def run (a : Action ε α) (s : Setting) (w : World) : Except ε α × World := a s w

instance : Monad (Action ε) where
  pure x := fun _ w => (.ok x, w)
  bind a f := fun s w =>
    match a s w with
    | (.ok x, w) => f x s w
    | (.error e, w) => (.error e, w)

def fail (e : ε) : Action ε α := fun _ w => (.error e, w)

/-- Yields a result that was computed before, or fails with its error. -/
def ofExcept (x : Except ε α) : Action ε α := fun _ w => (x, w)

def setting : Action ε Setting := fun s w => (.ok s, w)

def world : Action ε World := fun _ w => (.ok w, w)

def modify (f : World → World) : Action ε Unit := fun _ w => (.ok (), f w)

def modifySession (f : Session → Session) : Action ε Unit :=
  modify fun w => { w with session := f w.session }

def setFiles (files : FileTree) : Action ε Unit := modify fun w => { w with files := files }

/-- Writes an event into the journal. -/
def record (e : Event) : Action ε Unit := modify fun w => { w with journal := e :: w.journal }

/-- Shows something. -/
def report (n : Notice) : Action ε Unit := record (.shown n)

def mapError (f : ε → ε') (a : Action ε α) : Action ε' α := fun s w =>
  match a s w with
  | (.ok x, w) => (.ok x, w)
  | (.error e, w) => (.error (f e), w)

/-- An action that, if it fails, is followed by another one, whose result does not matter. -/
def onFailure (a : Action ε α) (closing : Action ε Unit) : Action ε α := fun s w =>
  match a s w with
  | (.ok x, w) => (.ok x, w)
  | (.error e, w) => (.error e, (closing s w).2)

def withSetting (f : Setting → Setting) (a : Action ε α) : Action ε α := fun s w => a (f s) w

def halt (code : Int64) : Action ε Unit := do
  let file := (← setting).file.path
  modifySession (·.halt file code)
  record (.halted file code)

/-- The code the current file was halted with. -/
def haltCode? : Action ε (Option Int64) := fun s w => (.ok (w.session.haltCode? s.file.path), w)

instance : LawfulMonad (Action ε) := .mk' _
  (fun a => by
    funext s w
    show (match a s w with | (.ok x, w) => (Except.ok x, w) | (.error e, w) => (.error e, w)) = a s w
    rcases a s w with ⟨_ | _, _⟩ <;> rfl)
  (fun _ _ => rfl)
  (fun a f g => by
    funext s w
    show (match (match a s w with | (.ok x, w) => f x s w | (.error e, w) => (.error e, w)) with
      | (.ok x, w) => g x s w | (.error e, w) => (.error e, w)) =
      (match a s w with
      | (.ok x, w) =>
        (match f x s w with | (.ok x, w) => g x s w | (.error e, w) => (.error e, w))
      | (.error e, w) => (.error e, w))
    rcases a s w with ⟨_ | _, _⟩ <;> rfl)

@[simp] theorem run_pure (x : α) (s : Setting) (w : World) :
    (pure x : Action ε α).run s w = (.ok x, w) := rfl

@[simp] theorem run_fail (e : ε) (s : Setting) (w : World) :
    (fail e : Action ε α).run s w = (.error e, w) := rfl

@[simp] theorem run_ofExcept (x : Except ε α) (s : Setting) (w : World) :
    (ofExcept x).run s w = (x, w) := rfl

@[simp] theorem run_setting (s : Setting) (w : World) :
    (setting : Action ε Setting).run s w = (.ok s, w) := rfl

@[simp] theorem run_world (s : Setting) (w : World) :
    (world : Action ε World).run s w = (.ok w, w) := rfl

@[simp] theorem run_record (e : Event) (s : Setting) (w : World) :
    (record e : Action ε Unit).run s w = (.ok (), { w with journal := e :: w.journal }) := rfl

@[simp] theorem run_haltCode? (s : Setting) (w : World) :
    (haltCode? : Action ε (Option Int64)).run s w = (.ok (w.session.haltCode? s.file.path), w) := rfl

/-- An action that yields hands on its world, and one that fails ends what follows it. -/
theorem run_bind (a : Action ε α) (f : α → Action ε β) (s : Setting) (w : World) :
    (a >>= f).run s w =
      match a.run s w with
      | (.ok x, w) => (f x).run s w
      | (.error e, w) => (.error e, w) := rfl

end Action

end DirectiveRunner
