import DirectiveRunner.Proofs.Proper
/-!
# Rules always have a program to start

A run starts with nothing stored and with directives whose parameters hold no commands at all
(`ProjectFile.directives_proper`), and what is evaluated from there on makes proper commands only. So
every command that a rule comes by is proper, wherever it was made and however it was handed on
(`commands_proper`), and the error of a command without a program never comes up.
-/

namespace DirectiveRunner

/-! ## Directives -/

namespace Yaml

/-- The key is read in a way of its own. -/
theorem exists_pairsToValues_cons (k d : Data) (es : List (Data × Data)) :
    ∃ key, pairsToValues ((k, d) :: es) = (key, d.toValue) :: pairsToValues es := by
  cases k <;> exact ⟨_, by simp only [pairsToValues]; rfl⟩

mutual

/-- The data of a directive hold no commands. -/
theorem Data.toValue_proper : ∀ d : Data, d.toValue.Proper
  | .null => Value.proper_null
  | .bool b => Value.proper_bool b
  | .int n => by
    rw [Data.toValue]
    exact Value.proper_ite (Value.proper_int _) (Value.proper_str _)
  | .float t | .str t => Value.proper_str _
  | .sequence items => Value.proper_list.mpr (allToValues_proper items)
  | .mapping entries =>
    Value.proper_map.mpr fun e mem => pairsToValues_proper entries e (Dict.mem_of_mem_ofList mem)
  | .tagged _ d => d.toValue_proper

theorem allToValues_proper : ∀ ds : List Data, ∀ v ∈ allToValues ds, v.Proper
  | [] => nofun
  | d :: ds => List.forall_mem_cons.mpr ⟨d.toValue_proper, allToValues_proper ds⟩

theorem pairsToValues_proper : ∀ es : List (Data × Data), Bindings.Proper (pairsToValues es)
  | [] => nofun
  | (k, d) :: es => by
    obtain ⟨key, same⟩ := exists_pairsToValues_cons k d es
    rw [same]
    exact List.forall_mem_cons.mpr ⟨d.toValue_proper, pairsToValues_proper es⟩

end

end Yaml

/-- Whether all commands in the parameters of a directive are proper. -/
def Directive.Proper (d : Directive) : Prop := Bindings.Proper d.parameters

/-- The commands in the directives that a computation yields are proper. -/
abbrev YieldsDirectives {ε : Type} (x : Except ε (List Directive)) : Prop :=
  Meets (fun ds => ∀ d ∈ ds, d.Proper) (fun _ => True) x

namespace Directive

theorem readParameters_proper (cs : List Char) :
    Meets Bindings.Proper (fun _ => True) (readParameters cs) := by
  unfold readParameters
  split
  · trivial
  · next entries read =>
    obtain ⟨d, -, same⟩ := Option.map_eq_some_iff.mp read
    have proper := d.toValue_proper
    rw [same] at proper
    exact Value.proper_map.mp proper
  · trivial

theorem extract_proper (lines : List String) (headerOnly : Bool) (type : FileType) :
    YieldsDirectives (extract lines headerOnly type) := by
  refine .of_ok fun ds extracted d mem => ?_
  obtain ⟨r, read⟩ := ofRaw_of_mem_extract extracted mem
  obtain ⟨f, -, made⟩ := ofRaw_eq_ok_iff.mp read
  obtain ⟨parameters, given, -, rfl⟩ := ofForm_eq_ok_iff.mp made
  unfold Form.readParameters at given
  cases written : f.parameters with
  | none =>
    rw [written] at given
    cases given
    exact nofun
  | some cs =>
    rw [written] at given
    exact (readParameters_proper cs).yields given

theorem copies_proper {d : Directive} (h : d.Proper) (file : Path) :
    YieldsDirectives (copies file d) := by
  have referring {parameters : Bindings} (proper : Bindings.Proper parameters) (target : Path) :
      (withReference { d with parameters } target).Proper :=
    proper.insert (Value.proper_str _)
  unfold copies
  split
  · exact List.forall_mem_singleton.mpr (referring h file)
  · dsimp only
    split
    · next names _ =>
      intro c mem
      obtain ⟨name, -, rfl⟩ := List.mem_map.mp mem
      apply referring
      exact fun e mem => h e (List.mem_filter.mp mem).1
    · trivial

theorem attach_proper {ds : List Directive} (h : ∀ d ∈ ds, d.Proper) (file : Path) :
    YieldsDirectives (attach ds file) := by
  refine .of_ok fun attached made c mem => ?_
  cases copied : ds.mapM (copies file) with
  | error e =>
    rw [attach, copied] at made
    cases made
  | ok css =>
    rw [attach, copied] at made
    cases made
    obtain ⟨cs, listed, mem⟩ := List.mem_flatten.mp mem
    obtain ⟨d, source, made⟩ := exists_of_mem_mapM copied cs listed
    exact (copies_proper (h d source) file).yields made c mem

end Directive

theorem ProjectFile.directives_proper (files : FileTree) (headerOnly : Bool) (f : ProjectFile) :
    YieldsDirectives (f.directives files headerOnly) :=
  .after fun lines => .bind (Directive.extract_proper lines headerOnly f.type) fun _ proper =>
    Directive.attach_proper proper f.path

/-! ## Errors -/

/-- Whether an error is another one than that of a command without a program, in whatever rule. -/
def RunError.NamesProgram (e : RunError) : Prop :=
  ∀ command, e.root ≠ .processSpawn command "no program given"

/-- Where all commands are proper, the action leaves them so; `Q` holds of what it yields, and it does
not fail for want of a program. -/
abbrev Action.RunsProper {α : Type} (s : Setting) (a : Action RunError α) (Q : α → Prop) : Prop :=
  a.Ensures World.Proper RunError.NamesProgram s Q

variable {s : Setting} {scope : Bindings}

/-! ## Arguments and conditions -/

theorem Condition.holds_proper (bound : Bindings.Proper scope) (expression : String) :
    (holds expression scope).RunsProper s fun _ => True := by
  refine .note trivial ?_
  apply Action.Ensures.bind (.mapError (evaluate_proper bound expression) fun _ _ => nofun)
  intro v _
  split
  · exact .pure trivial
  · exact .fail nofun

theorem Condition.allows_proper (bound : Bindings.Proper scope) :
    ∀ c, (allows scope c).RunsProper s fun _ => True
  | .onlyIf e => holds_proper bound e
  | .unless e => .bind (holds_proper bound e) fun _ _ => .pure trivial
  | .none | .while _ | .until _ => .pure trivial

theorem Condition.repeats_proper (bound : Bindings.Proper scope) :
    ∀ c, (repeats scope c).RunsProper s fun _ => True
  | .while e => holds_proper bound e
  | .until e => .bind (holds_proper bound e) fun _ _ => .pure trivial
  | .none | .onlyIf _ | .unless _ => .pure trivial

namespace Binding

variable {d : Directive}

theorem referenceValue_proper (h : d.Proper) : (referenceValue d).Proper :=
  Bindings.Proper.getD h referenceKey

theorem scope_proper (h : d.Proper) : Bindings.Proper (Binding.scope d) :=
  (Bindings.Proper.insert h (Value.proper_map.mpr h)).insert (referenceValue_proper h)

theorem argumentValue_proper (h : d.Proper) (a : Argument) :
    (argumentValue d a).RunsProper s Value.Proper := by
  have rendered (part : ArgumentPart) (t : String) :
      ((Template.render t (Binding.scope d)).mapError
        (RunError.argumentEvaluation a.identifier part)).RunsProper s Value.Proper :=
    .mapError (Template.render_proper (scope_proper h) t) fun _ _ => nofun
  apply Action.Ensures.ite
  · intro missing
    exact .fail nofun
  · intro present
    split
    · exact rendered _ _
    · exact rendered _ _
    · exact .pure (Value.proper_str "")

theorem bindArguments_proper (h : d.Proper) :
    ∀ (as : List Argument) {bound : Bindings}, Bindings.Proper bound →
      (bindArguments d bound as).RunsProper s Bindings.Proper
  | [], _, proper => .pure proper
  | a :: as, _, proper =>
    .bind (argumentValue_proper h a) fun _ value => bindArguments_proper h as (proper.insert value)

theorem reference_proper (h : d.Proper) : Bindings.Proper [(referenceKey, referenceValue d)] :=
  List.forall_mem_singleton.mpr (referenceValue_proper h)

theorem bind_proper (h : d.Proper) (r : Rule) : (bind r d).RunsProper s Bindings.Proper := by
  refine .note trivial ?_
  split
  · exact bindArguments_proper h _ (reference_proper h)
  · exact .fail nofun

end Binding

/-! ## Commands -/

namespace Command

variable {j : Job} {line : CommandLine}

theorem judge_proper (j : Job) (code : Int64) : (judge j code).RunsProper s fun _ => True := by
  have bound : Bindings.Proper [(exitValueKey, .int code)] :=
    List.forall_mem_singleton.mpr (Value.proper_int code)
  refine .note trivial ?_
  apply Action.Ensures.bind (.mapError (evaluate_proper bound _) fun _ _ => nofun)
  intro verdict _
  split
  · exact .pure trivial
  · exact .fail nofun

theorem exitCode_proper (line : CommandLine) :
    ∀ ending, (exitCode line ending).RunsProper s fun _ => True
  | .exited _ => .pure trivial
  | .killed => .bind_setting (.fail nofun)
  | .notStarted e => by
    -- no reason that a system gives reads like the one of the run itself
    have other : e.text ≠ "no program given" := by cases e <;> decide
    exact .fail fun _ same => other (RunError.processSpawn.inj same).2

theorem conclude_proper (line : CommandLine) (outcome : Outcome) :
    (conclude line outcome).RunsProper s fun _ => True := by
  apply Action.Ensures.bind_setting
  apply Action.Ensures.bind (.modify fun _ world => ⟨world.stored, world.noted⟩)
  intro _ _
  split
  · exact .note trivial (exitCode_proper line _)
  · exact exitCode_proper line _

/-- A proper command has a program to start. -/
theorem launch_proper (h : line.Proper) (directory : Path) :
    (launch line directory).RunsProper s fun _ => True := by
  apply Action.Ensures.bind_setting
  split
  · next none => exact absurd none h.1
  · refine .note h ?_
    apply Action.Ensures.bind .world
    intro w _
    exact conclude_proper line _

theorem spawn_proper (h : line.Proper) : (spawn j line).RunsProper s fun _ => True := by
  apply Action.Ensures.bind_setting
  apply Action.Ensures.ite
  · intro dry
    exact .note trivial (.pure trivial)
  · intro wet
    have launched : ((launch line (line.directory.getD s.options.workingDirectory)).onFailure
        (Action.report (.entryClosed false s.options.verbose))).RunsProper s fun _ => True :=
      .onFailure (launch_proper h _) fun _ world => world.note trivial
    refine .note trivial ?_
    apply Action.Ensures.bind launched
    intro code _
    apply Action.Ensures.bind (judge_proper j code)
    intro success _
    exact .note trivial (.pure trivial)

theorem runEntry_proper {v : Value} (h : v.Proper) : (runEntry j v).RunsProper s fun _ => True := by
  cases v with
  | bool b =>
    apply Action.Ensures.bind_setting
    split
    · exact .note trivial (.pure trivial)
    · exact .note trivial (.note trivial (.pure trivial))
  | command line => exact spawn_proper (Value.proper_command.mp h)
  | _ => exact .fail nofun

theorem runEntries_proper : ∀ vs : List Value, (∀ v ∈ vs, v.Proper) →
    (runEntries j vs).RunsProper s fun _ => True
  | [], _ => .pure trivial
  | v :: vs, h => by
    obtain ⟨first, others⟩ := List.forall_mem_cons.mp h
    apply Action.Ensures.bind (runEntry_proper first)
    intro success _
    apply Action.Ensures.bind_setting
    refine .note first ?_
    refine .ite (fun _ => .pure trivial) fun _ => ?_
    apply Action.Ensures.bind .haltCode?
    intro code _
    refine .ite (fun _ => .pure trivial) fun _ => ?_
    exact .bind (runEntries_proper vs others) fun _ _ => .pure trivial

theorem entries_proper {v : Value} (h : v.Proper) : ∀ u ∈ entries v, u.Proper :=
  fun u mem => h.flatten u (List.mem_filter.mp mem).1

theorem run_proper (bound : Bindings.Proper scope) (j : Job) :
    (run j scope).RunsProper s fun _ => True := by
  apply Action.Ensures.bind_setting
  refine .note trivial ?_
  apply Action.Ensures.bind (.mapError (Template.render_proper bound _) fun _ _ => nofun)
  intro v yielded
  exact .note yielded (runEntries_proper _ (entries_proper yielded))

end Command

/-! ## Rounds -/

namespace Execution

theorem stopped?_proper : stopped?.RunsProper s fun _ => True := by
  apply Action.Ensures.bind .haltCode?
  intro code _
  cases code with
  | none => exact .pure trivial
  | some code => exact .note trivial (.pure trivial)

theorem progress_proper (st : Status) : (progress st).RunsProper s fun _ => True := by
  apply Action.Ensures.bind stopped?_proper
  intro terminal _
  cases terminal <;> exact .pure trivial

theorem haltAfterFailure_proper : haltAfterFailure.RunsProper s fun _ => True := by
  intro w world
  exact ⟨world.halt s.file.path _, trivial⟩

theorem runCommand_proper (bound : Bindings.Proper scope) (r : Rule) (c : Conditional) (st : Status)
    (command : RuleCommand) : (runCommand r c scope st command).RunsProper s fun _ => True := by
  apply Action.Ensures.bind (Command.run_proper bound _)
  intro success _
  refine .note trivial ?_
  apply Action.Ensures.bind_setting
  refine .ite (fun _ => progress_proper _) fun _ => ?_
  exact .ite (fun _ => haltAfterFailure_proper) fun _ => progress_proper _

theorem runCommands_proper (bound : Bindings.Proper scope) (r : Rule) (c : Conditional) :
    ∀ (cs : List RuleCommand) (st : Status),
      (runCommands r c scope st cs).RunsProper s fun _ => True
  | [], _ => .pure trivial
  | command :: cs, st => by
    apply Action.Ensures.bind (runCommand_proper bound r c st command)
    intro p _
    cases p with
    | goesOn st => exact runCommands_proper bound r c cs st
    | ended terminal => exact .pure trivial

theorem round_proper (bound : Bindings.Proper scope) (r : Rule) (d : Directive) (number : UInt32)
    (st : Status) : (round r d scope number st).RunsProper s fun _ => True := by
  refine .note trivial ?_
  apply Action.Ensures.bind (runCommands_proper bound r _ _ _)
  intro p _
  cases p with
  | ended terminal => exact .pure trivial
  | goesOn st =>
    apply Action.Ensures.bind (Condition.repeats_proper bound _)
    intro again _
    apply Action.Ensures.bind stopped?_proper
    intro terminal _
    cases terminal <;> exact .pure trivial

theorem rounds_proper (bound : Bindings.Proper scope) (r : Rule) (d : Directive) (left : Nat)
    (number : UInt32) (st : Status) :
    (rounds r d scope number st left).RunsProper s fun _ => True := by
  refine rounds_of_round (P := fun a => a.RunsProper s fun _ => True) ?_ ?_ ?_ left number st
  · intro number st next proper
    exact Action.Ensures.bind (round_proper bound r d number st) fun p _ => proper p
  · intro terminal
    exact .pure trivial
  · refine .bind_setting (.fail ?_)
    intro command same
    cases same

/-! ## Directives and files -/

variable {d : Directive}

theorem executeRule_proper (h : d.Proper) (r : Rule) :
    (executeRule r d).RunsProper s fun _ => True := by
  apply Action.Ensures.bind (Binding.bind_proper h r)
  intro scope bound
  apply Action.Ensures.bind (Condition.allows_proper bound _)
  intro allowed _
  apply Action.Ensures.bind stopped?_proper
  intro terminal _
  cases terminal with
  | some terminal => exact .pure trivial
  | none =>
    refine .ite (fun _ => .bind_setting ?_) fun _ => .pure trivial
    exact rounds_proper bound r d _ _ _

theorem executeFrom_proper (h : d.Proper) (ruleFile : Path) :
    (executeFrom ruleFile d).RunsProper s fun _ => True := by
  apply Action.Ensures.bind .world
  intro w _
  have loaded : Meets (fun _ => True) RunError.NamesProgram
      (Rule.load w.files ruleFile d.identifier) := by
    refine .of (fun _ _ => trivial) fun e unread => ?_
    obtain ⟨problem, rfl⟩ := Rule.load_error unread
    exact nofun
  apply Action.Ensures.bind (.ofExcept loaded)
  intro r _
  exact executeRule_proper h r

theorem execute_proper (h : d.Proper) : (execute d).RunsProper s fun _ => True := by
  apply Action.Ensures.bind .haltCode?
  intro code _
  cases code with
  | some code => exact .pure trivial
  | none =>
    apply Action.Ensures.bind_setting
    refine .note trivial ?_
    apply Action.Ensures.bind .world
    intro w _
    have resolved : Meets (fun _ => True) RunError.NamesProgram
        (Rule.resolve w.files d.identifier s.options.rulePaths) := by
      refine .of (fun _ _ => trivial) fun e absent => ?_
      obtain ⟨paths, rfl⟩ := Rule.resolve_error absent
      exact nofun
    apply Action.Ensures.bind (.ofExcept resolved)
    intro ruleFile _
    apply Action.Ensures.mapError (executeFrom_proper h ruleFile)
    intro e names command
    rw [RunError.root_within]
    exact names command

theorem executeAll_proper : ∀ (ds : List Directive) (st : Status), (∀ d ∈ ds, d.Proper) →
    (executeAll st ds).RunsProper s fun _ => True
  | [], _, _ => .pure trivial
  | d :: ds, st, h => by
    obtain ⟨first, others⟩ := List.forall_mem_cons.mp h
    apply Action.Ensures.bind (execute_proper first)
    intro st' _
    apply Action.Ensures.bind .haltCode?
    intro code _
    exact .ite (fun _ => .pure trivial) fun _ => executeAll_proper ds _ others

theorem executeCurrent_proper : executeCurrent.RunsProper s fun _ => True := by
  apply Action.Ensures.bind_setting
  apply Action.Ensures.bind .world
  intro w _
  have read : Meets (fun ds => ∀ d ∈ ds, d.Proper) RunError.NamesProgram
      (s.file.directives w.files s.options.headerOnly) := by
    refine .of (fun ds given => (ProjectFile.directives_proper _ _ _).yields given) fun e failed => ?_
    rcases ProjectFile.directives_error failed with ⟨_, rfl⟩ | ⟨_, _, rfl⟩ <;> exact nofun
  apply Action.Ensures.bind (.ofExcept read)
  intro ds proper
  refine .note trivial ?_
  split
  · exact .note trivial (.pure trivial)
  · exact executeAll_proper _ _ proper

theorem executeFile_proper (f : ProjectFile) : (executeFile f).RunsProper s fun _ => True :=
  .withSetting executeCurrent_proper

theorem executeFilesFrom_proper : ∀ (fs : List ProjectFile) (st : Status),
    (executeFilesFrom st fs).RunsProper s fun _ => True
  | [], _ => .pure trivial
  | f :: fs, _ => .bind (executeFile_proper f) fun _ _ => executeFilesFrom_proper fs _

end Execution

/-! ## Moments -/

def Bindings.values (b : Bindings) : List Value := b.map (·.2)

theorem Bindings.proper_values {b : Bindings} : (∀ v ∈ b.values, v.Proper) ↔ Bindings.Proper b :=
  List.forall_mem_map

theorem Bindings.proper_append {b : Bindings} {vs : List Value} :
    (∀ v ∈ vs ++ b.values, v.Proper) ↔ (∀ v ∈ vs, v.Proper) ∧ Bindings.Proper b := by
  rw [List.forall_mem_append, proper_values]

theorem Directive.proper_values {ds : List Directive} :
    (∀ v ∈ ds.flatMap fun d => d.parameters.values, v.Proper) ↔ ∀ d ∈ ds, d.Proper := by
  constructor
  · intro h d mem
    exact Bindings.proper_values.mp fun v held => h v (List.mem_flatMap.mpr ⟨d, mem, held⟩)
  · intro h v mem
    obtain ⟨d, listed, held⟩ := List.mem_flatMap.mp mem
    exact Bindings.proper_values.mpr (h d listed) v held

open Bindings (proper_append proper_values)

/-- The values that a part of a run is given. -/
def Task.values : Task → List Value
  | .files _ | .file => []
  | .directives ds => ds.flatMap fun d => d.parameters.values
  | .directive d | .rule _ d => d.parameters.values
  | .arguments d bound _ => d.parameters.values ++ bound.values
  | .rounds _ d scope _ _ _ => d.parameters.values ++ scope.values
  | .condition _ scope | .commands _ _ scope _ _ | .command _ scope | .template _ scope
  | .segments _ scope | .text _ scope => scope.values
  | .entries _ vs | .call _ vs => vs
  | .process line _ => [.command line]
  | .expr e scope => e.literals ++ scope.values
  | .exprs es scope => Expr.literalsOfAll es ++ scope.values

/-- The value that a part of a run yields, if it is one that yields a value and does not fail. -/
def Task.yield? (s : Setting) (w : World) : Task → Option Value
  | .template t scope => ((Template.render t scope).run s w).1.toOption
  | .text expression scope => ((evaluate expression scope).run s w).1.toOption
  | .expr e scope => ((e.eval scope).run s w).1.toOption
  | .call name args => ((Helper.call name args).run s w).1.toOption
  | _ => none

/-- The values at hand at a moment: those that are stored before or after it, those that its part is
given, and the one that it yields. -/
inductive Moment.AtHand (m : Moment) : Value → Prop
  | stored {w key v} : w ∈ [m.world, m.after] → (key, v) ∈ w.session.store → AtHand m v
  | given {v} : v ∈ m.task.values → AtHand m v
  | yielded {v} : m.task.yield? m.setting m.world = some v → AtHand m v

namespace Task

/-- Whether all commands in what a part is given are proper. -/
def Proper (t : Task) : Prop := ∀ v ∈ t.values, v.Proper

variable {w : World}

/-- Where all commands are proper, every part leaves them so. -/
theorem after_proper (proper : w.Proper) : ∀ t : Task, t.Proper → (t.after s w).Proper
  | .files fs, _ => (Execution.executeFilesFrom_proper fs _ w proper).1
  | .file, _ => (Execution.executeCurrent_proper w proper).1
  | .directives ds, h => (Execution.executeAll_proper ds _ (Directive.proper_values.mp h) w proper).1
  | .directive d, h => (Execution.execute_proper (proper_values.mp h) w proper).1
  | .rule r d, h => (Execution.executeRule_proper (proper_values.mp h) r w proper).1
  | .arguments d bound as, h => by
    obtain ⟨given, bound⟩ := proper_append.mp h
    exact (Binding.bindArguments_proper (proper_values.mp given) as bound w proper).1
  | .condition e scope, h => (Condition.holds_proper (proper_values.mp h) e w proper).1
  | .rounds r d scope number st left, h =>
    (Execution.rounds_proper (proper_append.mp h).2 r d left number st w proper).1
  | .commands r c scope st cs, h =>
    (Execution.runCommands_proper (proper_values.mp h) r c cs st w proper).1
  | .command j scope, h => (Command.run_proper (proper_values.mp h) j w proper).1
  | .entries j vs, h => (Command.runEntries_proper vs h w proper).1
  | .process line directory, h =>
    (Command.launch_proper (Value.proper_command.mp (h _ List.mem_cons_self)) directory w proper).1
  | .template t scope, h => (Template.render_proper (proper_values.mp h) t w proper).1
  | .segments ss scope, h =>
    (Template.renderSegments_proper (proper_values.mp h) ss w proper).1
  | .text e scope, h => (evaluate_proper (proper_values.mp h) e w proper).1
  | .expr e scope, h =>
    (Expr.eval_proper (proper_append.mp h).2 e (proper_append.mp h).1 w proper).1
  | .exprs es scope, h =>
    (Expr.evalAll_proper (proper_append.mp h).2 es (proper_append.mp h).1 w proper).1
  | .call name args, h => (Helper.call_proper name h w proper).1

theorem yield?_proper (proper : w.Proper) {v : Value} :
    ∀ t : Task, t.Proper → t.yield? s w = some v → v.Proper := by
  have yields {a : Action EvalError Value} (h : a.KeepsProper s Value.Proper)
      (run : (a.run s w).1.toOption = some v) : v.Proper :=
    (h.of_run (Action.run_eq_ok run) proper).2
  intro t h run
  cases t with
  | template t scope => exact yields (Template.render_proper (proper_values.mp h) t) run
  | text e scope => exact yields (evaluate_proper (proper_values.mp h) e) run
  | expr e scope =>
    exact yields (Expr.eval_proper (proper_append.mp h).2 e (proper_append.mp h).1) run
  | call name args => exact yields (Helper.call_proper name h) run
  | _ => cases run

end Task

namespace Expr

theorem Proper.first {e e₁ : Expr} (h : e.Proper) (first : e.first? = some e₁) : e₁.Proper := by
  cases e <;> cases first
  all_goals first
    | exact h
    | exact (List.forall_mem_append.mp h).1
    | exact (List.forall_mem_append.mp (List.forall_mem_append.mp h).1).1

theorem Proper.second {e e₂ : Expr} (h : e.Proper) {v : Value} (second : e.second? v = some e₂) :
    e₂.Proper := by
  cases e with
  | index target key =>
    cases second
    exact (List.forall_mem_append.mp h).2
  | binary op left right =>
    have same : e₂ = right := by
      cases op <;> simp only [second?] at second
      all_goals first
        | (cases second; rfl)
        | (split at second <;> cases second; rfl)
    rw [same]
    exact (List.forall_mem_append.mp h).2
  | choice condition onTrue onFalse =>
    obtain ⟨h, h''⟩ := List.forall_mem_append.mp h
    obtain ⟨b, -, rfl⟩ := Option.map_eq_some_iff.mp second
    cases b with
    | true => exact (List.forall_mem_append.mp h).2
    | false => exact h''
  | _ => cases second

theorem Proper.items {e : Expr} (h : e.Proper) : ∀ v ∈ literalsOfAll e.items, v.Proper := by
  cases e with
  | list es | call name es | sequence es => exact h
  | _ => exact nofun

end Expr

namespace Moment

/-- Whether all commands that are stored at a moment, and that its part is given, are proper. -/
def Proper (m : Moment) : Prop := m.world.Proper ∧ m.task.Proper

/-- Where all commands are proper, they still are at the moments that come next. -/
theorem Proper.enters {m m' : Moment} (h : m.Proper) (e : m.Enters m') : m'.Proper := by
  obtain ⟨world, task⟩ := h
  -- the part that comes next is given some of what this part was given, and what has been bound or
  -- evaluated in between
  cases e with
  | firstFile => exact ⟨world, nofun⟩
  | otherFiles ran => exact ⟨((Execution.executeFile_proper _).of_run ran world).1, nofun⟩
  | directives read =>
    refine ⟨world.note trivial, Directive.proper_values.mpr ?_⟩
    exact (ProjectFile.directives_proper _ _ _).yields read
  | firstDirective =>
    exact ⟨world, proper_values.mpr (List.forall_mem_cons.mp (Directive.proper_values.mp task)).1⟩
  | otherDirectives ran _ =>
    obtain ⟨first, others⟩ := List.forall_mem_cons.mp (Directive.proper_values.mp task)
    exact ⟨((Execution.execute_proper first).of_run ran world).1, Directive.proper_values.mpr others⟩
  | rule _ => exact ⟨world.note trivial, task⟩
  | arguments _ =>
    refine ⟨world.note trivial, proper_append.mpr ⟨task, ?_⟩⟩
    exact Binding.reference_proper (proper_values.mp task)
  | guard ran _ =>
    obtain ⟨world, bound⟩ := (Binding.bind_proper (proper_values.mp task) _).of_run ran world
    exact ⟨world, proper_values.mpr bound⟩
  | rounds allowed =>
    obtain ⟨w₁, ran, asked, -⟩ := allowed
    obtain ⟨world, bound⟩ := (Binding.bind_proper (proper_values.mp task) _).of_run ran world
    rw [← Condition.allows_eq] at asked
    exact ⟨((Condition.allows_proper bound _).of_run asked world).1, proper_append.mpr ⟨task, bound⟩⟩
  | firstArgument _ _ =>
    have given := proper_values.mp (proper_append.mp task).1
    exact ⟨world, proper_values.mpr (Binding.scope_proper given)⟩
  | otherArguments ran =>
    obtain ⟨given, bound⟩ := proper_append.mp task
    obtain ⟨world, value⟩ :=
      (Binding.argumentValue_proper (proper_values.mp given) _).of_run ran world
    exact ⟨world, proper_append.mpr ⟨given, bound.insert value⟩⟩
  | condition => exact ⟨world.note trivial, task⟩
  | commands =>
    exact ⟨world.note trivial, proper_values.mpr (proper_append.mp task).2⟩
  | loop ran _ =>
    have bound := (proper_append.mp task).2
    obtain ⟨world, -⟩ :=
      (Execution.runCommands_proper bound _ _ _ _).of_run ran (world.note trivial)
    exact ⟨world, proper_values.mpr bound⟩
  | otherRounds ran =>
    have bound := (proper_append.mp task).2
    exact ⟨((Execution.round_proper bound _ _ _ _).of_run ran world).1, task⟩
  | firstCommand => exact ⟨world, task⟩
  | otherCommands ran =>
    have bound := proper_values.mp task
    exact ⟨((Execution.runCommand_proper bound _ _ _ _).of_run ran world).1, task⟩
  | rendering => exact ⟨world.note trivial, task⟩
  | entries ran =>
    obtain ⟨world, yielded⟩ :=
      (Template.render_proper (proper_values.mp task) _).of_run ran (world.note trivial)
    exact ⟨world.note yielded, Command.entries_proper yielded⟩
  | process _ =>
    exact ⟨world.note trivial, List.forall_mem_singleton.mpr (List.forall_mem_cons.mp task).1⟩
  | exitCheck _ ran =>
    have line := Value.proper_command.mp (List.forall_mem_cons.mp task).1
    obtain ⟨world, -⟩ := (Command.launch_proper line _).of_run ran (world.note trivial)
    exact ⟨world.note trivial, List.forall_mem_singleton.mpr (Value.proper_int _)⟩
  | otherEntries ran _ _ =>
    obtain ⟨first, others⟩ := List.forall_mem_cons.mp task
    exact ⟨((Command.runEntry_proper first).of_run ran world).1.note first, others⟩
  | soleBlock _ _ | segments _ _ | literal | block => exact ⟨world, task⟩
  | otherSegments ran => exact ⟨((evaluate_proper (proper_values.mp task) _).of_run ran world).1, task⟩
  | parsed read =>
    refine ⟨world, proper_append.mpr ⟨Expr.proper_of_parse read, ?_⟩⟩
    exact proper_values.mp task
  | firstOperand first =>
    obtain ⟨literals, bound⟩ := proper_append.mp task
    exact ⟨world, proper_append.mpr ⟨Expr.Proper.first literals first, bound⟩⟩
  | secondOperand first ran second =>
    obtain ⟨literals, bound⟩ := proper_append.mp task
    have proper := Expr.Proper.first literals first
    obtain ⟨world, -⟩ := (Expr.eval_proper bound _ proper).of_run ran world
    exact ⟨world, proper_append.mpr ⟨Expr.Proper.second literals second, bound⟩⟩
  | items =>
    obtain ⟨literals, bound⟩ := proper_append.mp task
    exact ⟨world, proper_append.mpr ⟨Expr.Proper.items literals, bound⟩⟩
  | call ran =>
    obtain ⟨literals, bound⟩ := proper_append.mp task
    exact (Expr.evalAll_proper bound _ literals).of_run ran world
  | firstExpr =>
    obtain ⟨literals, bound⟩ := proper_append.mp task
    exact ⟨world, proper_append.mpr ⟨(List.forall_mem_append.mp literals).1, bound⟩⟩
  | otherExprs ran =>
    obtain ⟨literals, bound⟩ := proper_append.mp task
    obtain ⟨first, others⟩ := List.forall_mem_append.mp literals
    obtain ⟨world, -⟩ := (Expr.eval_proper bound _ first).of_run ran world
    exact ⟨world, proper_append.mpr ⟨others, bound⟩⟩

end Moment

/-- **Rules always have a program to start.** Take any moment of a run that starts with nothing stored.
All commands in the values at hand, at any depth, have words, none of them blank. So has every command
that a process is about to be started for, which does not fail for want of a program, and every one
that a process was started for so far; and the run as a whole does not fail for want of a program
either. -/
theorem commands_proper {s : Setting} {properties : List (String × String)} {store : Option Path}
    {files : FileTree} {targets : List ProjectFile} {m : Moment}
    (reached : Moment.Reached
      ⟨s, { session := .start properties store, files }, .files targets⟩ m) :
    (∀ v, m.AtHand v → ∀ c ∈ v.commands, c.Proper) ∧
    (∀ line directory, m.task = .process line directory → line.Proper ∧
      ∀ e, ((Command.launch line directory).run m.setting m.world).1 = .error e → e.NamesProgram) ∧
    (∀ file line directory, .launched .command file line directory ∈ m.after.journal →
      line.Proper) ∧
    ∀ e, ((Execution.executeFiles targets).run s
      { session := .start properties store, files }).1 = .error e → e.NamesProgram := by
  have fresh : World.Proper { session := .start properties store, files } := ⟨nofun, nofun⟩
  have start : Moment.Proper ⟨s, { session := .start properties store, files }, .files targets⟩ :=
    ⟨fresh, nofun⟩
  obtain ⟨world, task⟩ : m.Proper := reached.invariant (fun _ _ h => h.enters) start
  have left : m.after.Proper := Task.after_proper world m.task task
  refine ⟨?_, ?_, ?_, ?_⟩
  · -- values at hand are stored, given to the part or yielded by it
    intro v atHand
    cases atHand with
    | stored mem listed =>
      rcases List.mem_pair.mp mem with rfl | rfl
      · exact world.stored _ listed
      · exact left.stored _ listed
    | given mem => exact task v mem
    | yielded run => exact Task.yield?_proper world m.task task run
  · intro line directory same
    rw [same] at task
    have proper : line.Proper := Value.proper_command.mp (task _ List.mem_cons_self)
    exact ⟨proper, fun e failed => (Command.launch_proper proper directory).of_failure failed world⟩
  · intro file line directory mem
    exact left.noted _ mem
  · intro e failed
    exact (Execution.executeFilesFrom_proper targets .processing).of_failure failed fresh

/-- A project with a rule that stores a command deep in a list, and runs what is stored. -/
def handingOn : FileTree :=
  .ofTexts
    [("doc.tex", "% arara: keep\n"),
      ("keep.yaml", "identifier: keep\ncommands:\n- command: '@\x7b " ++
        "putSession(\"c\", [[getCommand(\"tool\", \" \")]]); getSession().c \x7d'\n")]

/-- What is started is the command as it was made. -/
theorem commands_proper_handingOn :
    let m : Moment :=
      { setting := .ofDocument "doc.tex" true
        world := { session := .start [] none, files := handingOn }
        task := .files [.ofName "doc.tex"] }
    let line : CommandLine := ⟨["tool"], none⟩
    .launched .command ⟨"/doc.tex"⟩ line ⟨"/"⟩ ∈ m.after.journal ∧ line.Proper := by
  intro m line
  have launched : .launched .command ⟨"/doc.tex"⟩ line ⟨"/"⟩ ∈ m.after.journal := by decide +kernel
  have reached : m.Reached m := .start
  exact ⟨launched, (commands_proper reached).2.2.1 _ _ _ launched⟩

end DirectiveRunner
