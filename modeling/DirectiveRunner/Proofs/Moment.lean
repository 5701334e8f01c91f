import DirectiveRunner.Proofs.Binding
import DirectiveRunner.Proofs.File
import DirectiveRunner.Proofs.Rounds
/-!
# The moments of a run

What holds throughout a run cannot be said of its beginning and its end alone. A *moment* of a run is
a part of it that is about to be carried out (`Task`), from a list of files down to the call of a
helper, in the setting and the world it is carried out in. `Moment.Enters` says which moments carrying
out a part comes to next: its own parts, each in the world that those before it have left, and only
those that are reached. The moments of a run are those that are reached from its start
(`Moment.Reached`).

* `KeptByRun.reached` — a relation that everything in a run keeps holds between the world at the start
  and the world at every moment, before and after the part that is carried out there, whether it
  fails or not.
-/

namespace DirectiveRunner

namespace Expr

/-- The operand that an expression evaluates first. -/
def first? : Expr → Option Expr
  | .member target _ | .index target _ => some target
  | .not operand | .negate operand => some operand
  | .binary _ left _ => some left
  | .choice condition _ _ => some condition
  | .literal _ | .ident _ | .list _ | .call _ _ | .sequence _ => none

/-- The operand that an expression evaluates when the first one has a value. -/
def second? (v : Value) : Expr → Option Expr
  | .index _ key => some key
  | .binary .or _ right => if v = .bool false then some right else none
  | .binary .and _ right => if v = .bool true then some right else none
  | .binary _ _ right => some right
  | .choice _ onTrue onFalse => v.asBool?.map fun b => if b then onTrue else onFalse
  | .literal _ | .ident _ | .list _ | .member _ _ | .call _ _ | .not _ | .negate _ | .sequence _ =>
    none

/-- The expressions that an expression evaluates one after the other. -/
def items : Expr → List Expr
  | .list es | .call _ es | .sequence es => es
  | .literal _ | .ident _ | .member _ _ | .index _ _ | .not _ | .negate _ | .binary _ _ _
  | .choice _ _ _ => []

end Expr

/-- A part of a run, with what it is carried out on. What comes in a list is carried out one after the
other, as far as nothing fails or halts. -/
inductive Task where
  | files (fs : List ProjectFile)
  /-- The file of the setting is processed. -/
  | file
  | directives (ds : List Directive)
  | directive (d : Directive)
  /-- A directive is executed with the rule that has been loaded for it. -/
  | rule (r : Rule) (d : Directive)
  /-- Arguments are bound after others. -/
  | arguments (d : Directive) (bound : Bindings) (as : List Argument)
  | condition (expression : String) (scope : Bindings)
  | rounds (r : Rule) (d : Directive) (scope : Bindings) (number : UInt32) (status : Status)
    (left : Nat)
  | commands (r : Rule) (c : Conditional) (scope : Bindings) (status : Status)
    (cs : List RuleCommand)
  | command (j : Command.Job) (scope : Bindings)
  /-- The entries that a command has been rendered to are run. -/
  | entries (j : Command.Job) (vs : List Value)
  | process (line : CommandLine) (directory : Path)
  | template (t : String) (scope : Bindings)
  | segments (ss : List Template.Segment) (scope : Bindings)
  /-- An expression is parsed and evaluated. -/
  | text (expression : String) (scope : Bindings)
  | expr (e : Expr) (scope : Bindings)
  | exprs (es : List Expr) (scope : Bindings)
  | call (name : String) (args : List Value)

/-- The world that is left when a part of a run has been carried out, or has failed. -/
def Task.after (s : Setting) (w : World) : Task → World
  | .files fs => ((Execution.executeFiles fs).run s w).2
  | .file => (Execution.executeCurrent.run s w).2
  | .directives ds => ((Execution.executeAll .processing ds).run s w).2
  | .directive d => ((Execution.execute d).run s w).2
  | .rule r d => ((Execution.executeRule r d).run s w).2
  | .arguments d bound as => ((Binding.bindArguments d bound as).run s w).2
  | .condition expression scope => ((Condition.holds expression scope).run s w).2
  | .rounds r d scope number status left =>
    ((Execution.rounds r d scope number status left).run s w).2
  | .commands r c scope status cs => ((Execution.runCommands r c scope status cs).run s w).2
  | .command j scope => ((Command.run j scope).run s w).2
  | .entries j vs => ((Command.runEntries j vs).run s w).2
  | .process line directory => ((Command.launch line directory).run s w).2
  | .template t scope => ((Template.render t scope).run s w).2
  | .segments ss scope => ((Template.renderSegments scope ss).run s w).2
  | .text expression scope => ((evaluate expression scope).run s w).2
  | .expr e scope => ((e.eval scope).run s w).2
  | .exprs es scope => ((Expr.evalAll scope es).run s w).2
  | .call name args => ((Helper.call name args).run s w).2

/-- A part of a run that is about to be carried out. -/
structure Moment where
  setting : Setting
  world : World
  task : Task

namespace Moment

/-- The world that is left when the part has been carried out. -/
def after (m : Moment) : World := m.task.after m.setting m.world

open Execution in
/-- Carrying out the part of a moment comes to another moment. -/
inductive Enters : Moment → Moment → Prop
  -- files
  | firstFile {s w f fs} : Enters ⟨s, w, .files (f :: fs)⟩ ⟨{ s with file := f }, w, .file⟩
  | otherFiles {s w f fs st w'} : (executeFile f).run s w = (.ok st, w') →
    Enters ⟨s, w, .files (f :: fs)⟩ ⟨s, w', .files fs⟩
  | directives {s w ds} : s.file.directives w.files s.options.headerOnly = .ok ds →
    Enters ⟨s, w, .file⟩
      ⟨s, w.noted (.shown (.processing s.file.name (s.file.size? w.files))), .directives ds⟩
  | firstDirective {s w d ds} : Enters ⟨s, w, .directives (d :: ds)⟩ ⟨s, w, .directive d⟩
  | otherDirectives {s w d ds st w'} : (execute d).run s w = (.ok st, w') →
    w'.session.haltCode? s.file.path = none →
    Enters ⟨s, w, .directives (d :: ds)⟩ ⟨s, w', .directives ds⟩
  -- directives
  | rule {s w d ruleFile r} : Starts s w d ruleFile r →
    Enters ⟨s, w, .directive d⟩ ⟨s, w.noted (.executing s.file.path d.identifier), .rule r d⟩
  | arguments {s w r d} : Binding.unknownKeys r d = [] →
    Enters ⟨s, w, .rule r d⟩ ⟨s, w.noted (.binding r.identifier),
      .arguments d [(referenceKey, Binding.referenceValue d)] r.arguments⟩
  | guard {s w r d scope w' e wanted} : (Binding.bind r d).run s w = (.ok scope, w') →
    d.conditional.guard? = some (e, wanted) →
    Enters ⟨s, w, .rule r d⟩ ⟨s, w', .condition e scope⟩
  | rounds {s w r d scope w'} : Allowed s r d w scope w' →
    Enters ⟨s, w, .rule r d⟩
      ⟨s, w', .rounds r d scope 1 .processing (s.options.maxLoops.toNat - 1)⟩
  | firstArgument {s w d bound a as part t} :
    (a.required = true → Binding.Supplied d a) → Binding.BoundBy d a (some (part, t)) →
    Enters ⟨s, w, .arguments d bound (a :: as)⟩ ⟨s, w, .template t (Binding.scope d)⟩
  | otherArguments {s w d bound a as v w'} : (Binding.argumentValue d a).run s w = (.ok v, w') →
    Enters ⟨s, w, .arguments d bound (a :: as)⟩
      ⟨s, w', .arguments d (Dict.insert a.identifier v bound) as⟩
  | condition {s w e scope} :
    Enters ⟨s, w, .condition e scope⟩ ⟨s, w.noted (.checking e), .text e scope⟩
  -- rounds
  | commands {s w r d scope number st left} :
    Enters ⟨s, w, .rounds r d scope number st left⟩
      ⟨s, w.noted (.round number), .commands r d.conditional scope st r.commands⟩
  | loop {s w r d scope number st left st' w' e wanted} :
    (runCommands r d.conditional scope st r.commands).run s (w.noted (.round number)) =
      (.ok (.goesOn st'), w') →
    d.conditional.loop? = some (e, wanted) →
    Enters ⟨s, w, .rounds r d scope number st left⟩ ⟨s, w', .condition e scope⟩
  | otherRounds {s w r d scope number st left st' w'} :
    (round r d scope number st).run s w = (.ok (.goesOn st'), w') →
    Enters ⟨s, w, .rounds r d scope number st (left + 1)⟩
      ⟨s, w', .rounds r d scope (number + 1) st' left⟩
  | firstCommand {s w r c scope st command cs} :
    Enters ⟨s, w, .commands r c scope st (command :: cs)⟩ ⟨s, w, .command ⟨r, command, c⟩ scope⟩
  | otherCommands {s w r c scope st command cs st' w'} :
    (runCommand r c scope st command).run s w = (.ok (.goesOn st'), w') →
    Enters ⟨s, w, .commands r c scope st (command :: cs)⟩ ⟨s, w', .commands r c scope st' cs⟩
  -- commands
  | rendering {s w j scope} :
    Enters ⟨s, w, .command j scope⟩
      ⟨s, w.noted (.rendering s.file.path j.command.command), .template j.command.command scope⟩
  | entries {s w j scope v w'} :
    (Template.render j.command.command scope).run s
      (w.noted (.rendering s.file.path j.command.command)) = (.ok v, w') →
    Enters ⟨s, w, .command j scope⟩
      ⟨s, w'.noted (.rendered s.file.path v), .entries j (Command.entries v)⟩
  | process {s w j line vs} : s.options.dryRun = false →
    Enters ⟨s, w, .entries j (.command line :: vs)⟩
      ⟨s, w.noted (.shown (.entryOpened j.label s.options.verbose)),
        .process line (line.directory.getD s.options.workingDirectory)⟩
  | exitCheck {s w j line vs code w'} : s.options.dryRun = false →
    (Command.launch line (line.directory.getD s.options.workingDirectory)).run s
      (w.noted (.shown (.entryOpened j.label s.options.verbose))) = (.ok code, w') →
    Enters ⟨s, w, .entries j (.command line :: vs)⟩
      ⟨s, w'.noted (.judging (j.command.exit.getD Command.defaultCheck)),
        .text (j.command.exit.getD Command.defaultCheck) [(Command.exitValueKey, .int code)]⟩
  | otherEntries {s w j v vs success w'} :
    (Command.runEntry j v).run s w = (.ok success, w') →
    ¬(success = false ∧ s.options.haltOnErrors = true) →
    w'.session.haltCode? s.file.path = none →
    Enters ⟨s, w, .entries j (v :: vs)⟩
      ⟨s, w'.noted (.judged s.file.path v success), .entries j vs⟩
  -- templates
  | soleBlock {s w t scope segments code} : Template.split t = .ok segments →
    Template.soleBlock? segments = some code →
    Enters ⟨s, w, .template t scope⟩ ⟨s, w, .text (.ofList code) scope⟩
  | segments {s w t scope segments} : Template.split t = .ok segments →
    Template.soleBlock? segments = none →
    Enters ⟨s, w, .template t scope⟩ ⟨s, w, .segments segments scope⟩
  | literal {s w text ss scope} :
    Enters ⟨s, w, .segments (.literal text :: ss) scope⟩ ⟨s, w, .segments ss scope⟩
  | block {s w code ss scope} :
    Enters ⟨s, w, .segments (.block code :: ss) scope⟩ ⟨s, w, .text (.ofList code) scope⟩
  | otherSegments {s w code ss scope v w'} :
    (evaluate (.ofList code) scope).run s w = (.ok v, w') →
    Enters ⟨s, w, .segments (.block code :: ss) scope⟩ ⟨s, w', .segments ss scope⟩
  -- expressions
  | parsed {s w text scope e} : Expr.parse text = .ok e →
    Enters ⟨s, w, .text text scope⟩ ⟨s, w, .expr e scope⟩
  | firstOperand {s w e scope e₁} : e.first? = some e₁ →
    Enters ⟨s, w, .expr e scope⟩ ⟨s, w, .expr e₁ scope⟩
  | secondOperand {s w e scope e₁ v w' e₂} : e.first? = some e₁ →
    (e₁.eval scope).run s w = (.ok v, w') → e.second? v = some e₂ →
    Enters ⟨s, w, .expr e scope⟩ ⟨s, w', .expr e₂ scope⟩
  | items {s w e scope} : Enters ⟨s, w, .expr e scope⟩ ⟨s, w, .exprs e.items scope⟩
  | call {s w name es scope args w'} : (Expr.evalAll scope es).run s w = (.ok args, w') →
    Enters ⟨s, w, .expr (.call name es) scope⟩ ⟨s, w', .call name args⟩
  | firstExpr {s w e es scope} : Enters ⟨s, w, .exprs (e :: es) scope⟩ ⟨s, w, .expr e scope⟩
  | otherExprs {s w e es scope v w'} : (e.eval scope).run s w = (.ok v, w') →
    Enters ⟨s, w, .exprs (e :: es) scope⟩ ⟨s, w', .exprs es scope⟩

/-- A moment that carrying out the part of another one comes to sooner or later. -/
inductive Reached (m₀ : Moment) : Moment → Prop
  | start : Reached m₀ m₀
  | next {m m'} : Reached m₀ m → Enters m m' → Reached m₀ m'

/-- What holds at the start and is handed on from moment to moment holds at every moment. -/
theorem Reached.invariant {P : Moment → Prop} (step : ∀ m m', P m → Enters m m' → P m')
    {m₀ m : Moment} (start : P m₀) (h : Reached m₀ m) : P m := by
  induction h with
  | start => exact start
  | next _ enters ih => exact step _ _ ih enters

end Moment

/-! ## What a run keeps -/

namespace KeptByRun

variable {R : World → World → Prop} [IsPreorder World R]

/-- What everything keeps is kept by each part. -/
theorem after (h : ∀ s, KeptByRun R s) (s : Setting) (w : World) : ∀ t : Task, R w (t.after s w)
  | .files fs => executeFiles (fun f => h { s with file := f }) fs _ w
  | .file => (h s).executeCurrent w
  | .directives ds => Execution.executeAll_keeps (h s).execute ds _ w
  | .directive d => (h s).execute d w
  | .rule r d => Execution.executeRule_keeps (h s).directives r d w
  | .arguments d bound as => Binding.bindArguments_keeps (h s).calls d as bound w
  | .condition _ scope => Condition.holds_keeps_from (h s).calls ((h s).noted w _ trivial) scope
  | .rounds r d scope _ _ left => Execution.rounds_keeps (h s).rounds r d scope left trivial
  | .commands r c scope _ cs => Execution.runCommands_keeps (h s).rounds r c scope cs _ trivial
  | .command j scope => (h s).command j scope w
  | .entries j vs => (h s).runEntries j vs w
  | .process line directory => (h s).launch line directory w
  | .template t scope => Template.render_keeps (h s).calls t scope w
  | .segments ss scope =>
    Template.renderSegments_satisfies .keeps scope ss (fun name _ => (h s).calls name) w
  | .text expression scope => evaluate_keeps (h s).calls expression scope w
  | .expr e scope => e.eval_keeps (h s).calls scope w
  | .exprs es scope => Expr.evalAll_satisfies .keeps scope es (fun name _ => (h s).calls name) w
  | .call name args => (h s).calls name args w

/-- What everything keeps is kept from a part to the next. -/
theorem enters (h : ∀ s, KeptByRun R s) {m m' : Moment} (e : m.Enters m') :
    R m.world m'.world := by
  have noted {w : World} {e : Event} (note : e.isNote) : R w (w.noted e) :=
    (h m.setting).noted w e note
  cases e with
  | firstFile | firstDirective | firstArgument _ _ | firstCommand | soleBlock _ _ | segments _ _
  | literal | block | parsed _ | firstOperand _ | items | firstExpr => exact refl_of R _
  | directives _ | rule _ | arguments _ | condition | commands | rendering | process _ =>
    exact noted trivial
  | otherFiles ran => exact Action.Keeps.of_run (.withSetting (h _).executeCurrent) ran
  | otherDirectives ran _ => exact ((h _).execute _).of_run ran
  | guard bound _ => exact ((h _).bind _ _).of_run bound
  | rounds allowed =>
    obtain ⟨w₁, bound, asked, -⟩ := allowed
    rw [← Condition.allows_eq] at asked
    exact trans_of R (((h _).bind _ _).of_run bound) (((h _).allows _ _).of_run asked)
  | otherArguments ran => exact (Binding.argumentValue_keeps (h _).calls _ _).of_run ran
  | @loop s w r d scope number st _ _ _ _ _ goesOn _ =>
    -- the condition of the loop is asked where the commands of the round have ended
    have ran := after h s (w.noted (.round number)) (.commands r d.conditional scope st r.commands)
    rw [Task.after, goesOn] at ran
    refine trans_of R ?_ ran
    exact noted trivial
  | otherRounds ran =>
    exact Action.Keeps.of_run (fun w => Execution.round_keeps (h _).rounds trivial _ _ _ _ _) ran
  | otherCommands ran =>
    exact Action.Keeps.of_run (fun w => Execution.runCommand_keeps (h _).rounds trivial _ _ _ _ _) ran
  | entries ran =>
    have rendered := (Template.render_keeps (h _).calls _ _).of_run ran
    refine trans_of R (trans_of R ?_ rendered) ?_ <;> exact noted trivial
  | exitCheck _ ran =>
    have launched := ((h _).launch _ _).of_run ran
    refine trans_of R (trans_of R ?_ launched) ?_ <;> exact noted trivial
  | otherEntries ran _ _ =>
    refine trans_of R (((h _).runEntry _ _).of_run ran) ?_
    exact noted trivial
  | otherSegments ran => exact (evaluate_keeps (h _).calls _ _).of_run ran
  | secondOperand _ ran _ | otherExprs ran => exact (Expr.eval_keeps (h _).calls _ _).of_run ran
  | call ran => exact (Expr.evalAll_satisfies .keeps _ _ fun name _ => (h _).calls name).of_run ran

/-- **What a run keeps holds at every moment**, between the world at the start and the worlds before and
after the part that is carried out there. -/
theorem reached (h : ∀ s, KeptByRun R s) {m₀ m : Moment} (reached : m₀.Reached m) :
    R m₀.world m.world ∧ R m₀.world m.after := by
  have before : R m₀.world m.world := by
    induction reached with
    | start => exact refl_of R _
    | next _ e ih => exact trans_of R ih (enters h e)
  exact ⟨before, trans_of R before (after h m.setting m.world m.task)⟩

end KeptByRun

end DirectiveRunner
