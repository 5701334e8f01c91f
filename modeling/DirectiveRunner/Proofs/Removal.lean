import DirectiveRunner.Proofs.CutOff
import DirectiveRunner.Proofs.Launch
import DirectiveRunner.Proofs.RuleFile
import DirectiveRunner.Proofs.Template
/-!
# What the rule `clean` removes

The rule is to refuse to remove the file that is processed. Its command compares the reference with
the name of that file, and the reference is a path: one that is made of the path of the processed file,
which is absolute, so it has a slash, and a name has none (`target_ne_fileName`). The command thus
always renders to the command line that removes the reference (`render_removal`), and every round of
the rule starts it (`execute_clean`), be the reference the processed file or not.
-/

namespace DirectiveRunner

/-! ## The rule -/

namespace Clean

/-- The expression of the command. -/
def code : List Char :=
  " reference == getOriginalFile() ? ".toList ++
    "throwError('I cannot remove the main file reference.') : ".toList ++
    "isUnix(getCommand('rm', '-f', reference), ".toList ++
    "getCommand('cmd', '/c', 'del', reference)) ".toList

/-- The characters of the file of the rule. -/
def chars : List Char :=
  "!config\nidentifier: clean\nname: Clean\n".toList ++
    "authors:\n- Marco Daniel\n- Paulo Cereda\n".toList ++
    "commands:\n- name: Cleaning feature\n".toList ++
    "  command: \"".toList ++ (Template.Segment.block code).written ++ "\"\n".toList

def text : String := .ofList chars

def command : RuleCommand where
  name := some "Cleaning feature"
  command := .ofList (Template.Segment.block code).written

def rule : Rule where
  identifier := "clean"
  name := some "Clean"
  authors := ["Marco Daniel", "Paulo Cereda"]
  commands := [command]

theorem read_text : Rule.FromYaml.read? text = some rule := by
  unfold Rule.FromYaml.read? text
  rewrite [String.toList_ofList]
  decide +kernel

theorem not_toml : Rule.FromToml.read? text = none := by
  unfold Rule.FromToml.read? Toml.read? text
  rewrite [String.toList_ofList]
  decide +kernel

theorem load_of_text {files : FileTree} {path : Path} (shipped : files.readText path = .ok text)
    (yaml : path.extension? ≠ some Rule.tomlExtension) :
    Rule.load files path "clean" = .ok rule := by
  have read : Rule.read? path text = some rule := by rw [Rule.read?, if_neg yaml, read_text]
  exact Rule.load_eq_ok_iff.mpr ⟨text, shipped, read, by decide +kernel⟩

/-- A file with the text can only be loaded as the rule. -/
theorem eq_rule_of_load {files : FileTree} {path : Path} {identifier : String} {r : Rule}
    (shipped : files.readText path = .ok text) (h : Rule.load files path identifier = .ok r) :
    r = rule := by
  obtain ⟨_, same, read, -⟩ := Rule.load_eq_ok_iff.mp h
  rw [← Except.ok.inj (shipped.symm.trans same), Rule.read?] at read
  split at read
  · rw [not_toml] at read
    cases read
  · rw [read_text] at read
    exact (Option.some.inj read).symm

def tokens : List Expr.Token :=
  [.ident "reference", .mark .equal, .ident "getOriginalFile", .mark .openParen, .mark .closeParen,
    .mark .question, .ident "throwError", .mark .openParen,
    .str "I cannot remove the main file reference.", .mark .closeParen, .mark .colon,
    .ident "isUnix", .mark .openParen, .ident "getCommand", .mark .openParen, .str "rm",
    .mark .comma, .str "-f", .mark .comma, .ident "reference", .mark .closeParen, .mark .comma,
    .ident "getCommand", .mark .openParen, .str "cmd", .mark .comma, .str "/c", .mark .comma,
    .str "del", .mark .comma, .ident "reference", .mark .closeParen, .mark .closeParen]

/-- The call that makes the command line. -/
def removes : Expr :=
  .call "getCommand" [.literal (.str "rm"), .literal (.str "-f"), .ident "reference"]

/-- The call that makes the command line of another platform. -/
def deletes : Expr :=
  .call "getCommand"
    [.literal (.str "cmd"), .literal (.str "/c"), .literal (.str "del"), .ident "reference"]

/-- The comparison that is to guard the processed file. -/
def guard : Expr := .binary .eq (.ident "reference") (.call "getOriginalFile" [])

def expression : Expr :=
  .choice guard
    (.call "throwError" [.literal (.str "I cannot remove the main file reference.")])
    (.call "isUnix" [removes, deletes])

theorem tokenize_code : Expr.tokenize code = .ok tokens := by
  decide +kernel

theorem parse_code : Expr.parse (.ofList code) = .ok expression := by
  have read : Expr.tokenize (String.ofList code).toList = .ok tokens := by
    rw [String.toList_ofList, tokenize_code]
  exact (Parse.parse_of_tokenize read).mpr (by rfl)

/-- The command has the value of the expression. -/
theorem render_command (scope : Bindings) :
    Template.render command.command scope = expression.eval scope := by
  rw [command, Template.render_block
    (Template.split_block String.toList_ofList (Expr.tokenize_eq_ok_iff.mp tokenize_code))]
  exact evaluate_of_parse parse_code scope

/-- The command line that removes a file. -/
def removal (t : String) : CommandLine := ⟨["rm", "-f", t], none⟩

section

variable {s : Setting} {w : World} {t : String}

theorem eval_guard (other : t ≠ s.file.path.fileName) :
    (guard.eval [(referenceKey, .str t)]).run s w = (.ok (.bool false), w) := by
  show (Except.ok (Value.bool (decide (Value.str t = Value.str s.file.path.fileName))), w) = _
  simp [other]

theorem getCommand_removal (visible : isBlankText t = false) :
    Helper.getCommand [.str "rm", .str "-f", .str t] = .ok (.command (removal t)) := by
  have rm : isBlankText "rm" = false := by decide +kernel
  have force : isBlankText "-f" = false := by decide +kernel
  simp [Helper.getCommand, Helper.commandOf, Helper.visibleTexts, Value.flatten, Value.text,
    visible, rm, force, removal]

theorem eval_removes (visible : isBlankText t = false) :
    (removes.eval [(referenceKey, .str t)]).run s w = (.ok (.command (removal t)), w) := by
  rw [← getCommand_removal visible]
  rfl

/-- What the comparison tells apart from the name of the processed file is removed. -/
theorem eval_expression (visible : isBlankText t = false) (other : t ≠ s.file.path.fileName) :
    (expression.eval [(referenceKey, .str t)]).run s w = (.ok (.command (removal t)), w) := by
  obtain ⟨v, deleted⟩ : ∃ v, (deletes.eval [(referenceKey, .str t)]).run s w = (.ok v, w) :=
    ⟨_, rfl⟩
  rw [expression, Expr.eval, Action.run_bind, eval_guard other]
  show (Expr.eval [(referenceKey, .str t)] (.call "isUnix" [removes, deletes])).run s w = _
  -- both command lines are made, and the first one is the value on this platform
  rw [Expr.eval, Expr.evalAll, Action.run_bind, Action.run_bind, eval_removes visible]
  simp only
  rw [Expr.evalAll, Action.run_bind, Action.run_bind, deleted]
  rfl

end

end Clean

/-! ## Files and names -/

namespace Path

variable {p : Path}

theorem slash_mem (h : p.isAbsolute = true) : '/' ∈ p.chars := by
  rw [chars_eq_of_isAbsolute h]
  exact List.mem_cons_self

/-- The name of a file has no slash. -/
theorem slash_not_mem_fileName (h : p.isAbsolute = true) : '/' ∉ p.fileName.toList := by
  rw [fileName, fileName?_of_isAbsolute h]
  cases last : p.moves.getLast? with
  | none => simp
  | some s =>
    have plain : '/' ∉ s := fun slash =>
      (mem_of_mem_moves (List.mem_of_getLast? last) slash).2 rfl
    unfold componentOf
    simp only [Option.bind_some]
    split
    · simp [Component.name?]
    · simpa [Component.name?] using plain

end Path

/-- The files a directive is for have a slash in their paths. -/
theorem Directive.Targets.slash_mem {file : Path} {d : Directive} {targets : List Path}
    (h : Directive.Targets file d targets) (absolute : file.isAbsolute = true) :
    ∀ target ∈ targets, '/' ∈ target.chars := by
  intro target mem
  cases h with
  | itself _ =>
    obtain rfl := List.mem_singleton.mp mem
    exact Path.slash_mem absolute
  | @listed _ names _ _ =>
    obtain ⟨name, -, rfl⟩ := List.mem_map.mp mem
    cases relative : (Path.mk name).isAbsolute with
    | true =>
      rw [Path.join, if_pos relative]
      exact Path.slash_mem relative
    | false =>
      rcases Path.parent?_of_isAbsolute absolute with ⟨root, -⟩ | ⟨q, -, parent, above, -⟩
      · -- only the root has no parent
        rw [root, Option.getD_none, Path.join, if_neg (by simp [relative])]
        simp [Path.chars]
      · rw [parent, Option.getD_some]
        exact Path.slash_mem ((Path.isAbsolute_join relative q).trans above)

/-- What the command of the rule compares is never the same. -/
theorem Clean.target_ne_fileName {file : Path} {d : Directive} {targets : List Path}
    (h : Directive.Targets file d targets) (absolute : file.isAbsolute = true) {target : Path}
    (mem : target ∈ targets) : target.text ≠ file.fileName := by
  intro same
  have slash := h.slash_mem absolute target mem
  rw [Path.chars, same] at slash
  exact Path.slash_not_mem_fileName absolute slash

theorem isBlankText_of_slash {t : String} (h : '/' ∈ t.toList) : isBlankText t = false := by
  rw [isBlankText, Text.allBlank, List.all_eq_false]
  exact ⟨'/', h, by decide⟩

/-! ## Rules with a single command line -/

/-- Whether an event says that a round starts or that a command starts a process. -/
def Event.isRoundOrStart : Event → Bool
  | .round _ | .launched .command _ _ _ => true
  | _ => false

theorem Event.isRoundOrStart_of_byExpression {file : Path} {e : Event} (h : e.byExpression file) :
    e.isRoundOrStart = false := by
  unfold byExpression at h
  split at h <;> simp_all [isRoundOrStart]

namespace Execution

variable {s : Setting} {r : Rule} {d : Directive} {scope : Bindings} {c : RuleCommand}
  {line : CommandLine}

/-- In a scope, a rule consists of one command, which is the same command line in every world. -/
structure RunsOnly (s : Setting) (r : Rule) (scope : Bindings) (c : RuleCommand)
    (line : CommandLine) : Prop where
  commands : r.commands = [c]
  exit : c.exit = none
  renders (w : World) : (Template.render c.command scope).run s w = (.ok (.command line), w)
  given : line.arguments ≠ []

/-- The starts of a command line in a round: one, or none in a dry run. -/
def started (s : Setting) (line : CommandLine) : List Event :=
  if s.options.dryRun then []
  else [.launched .command s.file.path line (line.directory.getD s.options.workingDirectory)]

/-- `w'` comes of `w` by rounds in each of which the command line is started, and nothing else. -/
def StartsEach (s : Setting) (line : CommandLine) (w w' : World) : Prop :=
  ∃ numbers : List UInt32,
    w.Marks Event.isRoundOrStart (numbers.flatMap fun n => .round n :: started s line) w'

instance (s : Setting) (line : CommandLine) : IsPreorder World (StartsEach s line) where
  refl w := ⟨[], .of_does (refl_of _ w)⟩
  trans w w₁ w₂ := by
    rintro ⟨numbers, marks⟩ ⟨numbers', marks'⟩
    exact ⟨numbers ++ numbers', by simpa using marks.trans marks'⟩

theorem StartsEach.of_does {w w' : World} (h : w.Does (·.isRoundOrStart = false) w') :
    StartsEach s line w w' :=
  ⟨[], .of_does h⟩

theorem keptByEntries_unmarked :
    Command.KeptByEntries (World.Does (·.isRoundOrStart = false)) s :=
  Command.keptByEntries_does (fun _ => Event.isRoundOrStart_of_byExpression) (fun _ => rfl)
    fun _ _ => rfl

/-- The only entry of the command is started, unless the run is dry. -/
theorem spawn_marks (j : Command.Job) (given : line.arguments ≠ []) :
    Action.Keeps (World.Marks Event.isRoundOrStart (started s line)) s (Command.spawn j line) := by
  intro w
  unfold started
  cases dry : s.options.dryRun with
  | true =>
    rw [Command.spawn, Action.run_setting_bind, if_pos dry]
    exact .of_does (.noted rfl (by simp))
  | false =>
    have shown : w.Does (·.isRoundOrStart = false)
        (w.noted (.shown (.entryOpened j.label s.options.verbose))) := .noted rfl (by simp)
    have launched : (w.noted (.shown (.entryOpened j.label s.options.verbose))).Marks
        Event.isRoundOrStart [.launched .command s.file.path line
          (line.directory.getD s.options.workingDirectory)] _ := .noted rfl (by simp)
    exact ((World.Marks.of_does shown).trans launched).quiet
      (Command.spawn_starts keptByEntries_unmarked dry j given w)

/-- By default a process has succeeded if its exit code is zero, which is always found out. -/
theorem judge_default {j : Command.Job} (exit : j.command.exit = none) (code : Int64) (w : World) :
    (Command.judge j code).run s w =
      (.ok (decide (Value.int code = .int 0)), w.noted (.judging Command.defaultCheck)) := by
  have tokens : Expr.tokenize Command.defaultCheck.toList =
      .ok [.ident "value", .mark .equal, .int 0] := by decide +kernel
  have read : Expr.parse Command.defaultCheck =
      .ok (.binary .eq (.ident "value") (.literal (.int 0))) :=
    (Parse.parse_of_tokenize tokens).mpr (by rfl)
  rw [Command.judge, exit, Option.getD_none, Action.run_record_bind, evaluate_of_parse read]
  rfl

/-- Without an exit expression, what may fail in an entry is its process. -/
theorem spawn_raises_isProcess {j : Command.Job} (exit : j.command.exit = none) :
    Action.Raises RunError.isProcess (Command.spawn j line) := by
  refine .bind .setting fun s => .ite (.bind (.record _) fun _ => .pure _) ?_
  refine .bind (.record _) fun _ =>
    .bind (.onFailure (Command.launch_raises line _) _) fun code => ?_
  refine .bind (.of_ok fun s w => ⟨_, _, judge_default exit code w⟩) fun _ => ?_
  exact .bind (.record _) fun _ => .pure _

namespace RunsOnly

theorem run_eq (h : RunsOnly s r scope c line) (conditional : Conditional) (w : World) :
    (Command.run ⟨r, c, conditional⟩ scope).run s w =
      (Command.runEntries ⟨r, c, conditional⟩ [.command line]).run s
        ((w.noted (.rendering s.file.path c.command)).noted
          (.rendered s.file.path (.command line))) := by
  rw [Command.run, Action.run_setting_bind, Action.run_record_bind, Action.run_bind,
    Action.run_mapError, Evaluator.render_standard, h.renders]
  rfl

theorem run_marks (h : RunsOnly s r scope c line) (conditional : Conditional) :
    Action.Keeps (World.Marks Event.isRoundOrStart (started s line)) s
      (Command.run ⟨r, c, conditional⟩ scope) := by
  intro w
  rw [h.run_eq]
  have rendering : w.Does (·.isRoundOrStart = false)
      (w.noted (.rendering s.file.path c.command)) := .noted rfl nofun
  have rendered : (w.noted (.rendering s.file.path c.command)).Does (·.isRoundOrStart = false)
      ((w.noted (.rendering s.file.path c.command)).noted
        (.rendered s.file.path (.command line))) := .noted rfl nofun
  refine (World.Marks.of_does (trans_of _ rendering rendered)).trans ?_
  refine Action.Keeps.bind_quiet (spawn_marks _ h.given) (fun success => ?_) _
  refine .bind_setting <| .bind (.record fun w => .noted rfl nofun) fun _ => .ite (.pure _) ?_
  exact .bind .haltCode? fun code => .ite (.pure _) (.bind (.pure _) fun _ => .pure _)

theorem run_failsWith (h : RunsOnly s r scope c line) {conditional : Conditional} {w : World}
    {e : RunError} (failed : (Command.run ⟨r, c, conditional⟩ scope).FailsWith s w e) :
    e.isProcess := by
  rw [Action.FailsWith, h.run_eq, ← Action.FailsWith, Command.runEntries,
    Action.FailsWith.bind_of_never] at failed
  · exact (spawn_raises_isProcess h.exit).of_failsWith failed
  · -- no entry comes after the only one
    intro success
    refine .bind .setting fun _ => .bind (.record _) fun _ => .ite (.pure _) ?_
    exact .bind .haltCode? fun code => .ite (.pure _) (.bind (.pure _) fun _ => .pure _)

theorem runCommands_marks (h : RunsOnly s r scope c line) (conditional : Conditional) (st : Status) :
    Action.Keeps (World.Marks Event.isRoundOrStart (started s line)) s
      (runCommands r conditional scope st r.commands) := by
  rw [h.commands, runCommands]
  have command := (h.run_marks conditional).bind_quiet
    (afterCommand_does (fun _ => rfl) (fun _ _ => rfl) (fun _ => rfl) st c)
  refine Action.Keeps.bind_quiet command fun p => ?_
  split <;> exact .pure _

/-- A round starts the command line once. -/
theorem round_marks (h : RunsOnly s r scope c line) (number : UInt32) (st : Status) :
    Action.Keeps (World.Marks Event.isRoundOrStart (.round number :: started s line)) s
      (round r d scope number st) := by
  intro w
  rw [round, Action.run_record_bind]
  have begun : w.Marks Event.isRoundOrStart [.round number] (w.noted (.round number)) :=
    .noted rfl (by simp)
  refine begun.trans (Action.Keeps.bind_quiet (h.runCommands_marks d.conditional st) (fun p => ?_) _)
  split
  · exact .pure _
  · refine .bind ?_ fun again => .bind (stopped?_does fun _ => rfl) fun x => ?_
    · exact Condition.repeats_keeps keptByEntries_unmarked.calls (fun w e => .noted rfl (by simp)) _ _
    · split <;> exact .pure _

theorem rounds_startsEach (h : RunsOnly s r scope c line) (left : Nat) (number : UInt32)
    (st : Status) : Action.Keeps (StartsEach s line) s (rounds r d scope number st left) := by
  have first (number : UInt32) (st : Status) :
      Action.Keeps (StartsEach s line) s (round r d scope number st) := fun w =>
    ⟨[number], by simpa using h.round_marks number st w⟩
  refine rounds_of_round (fun number st next => ?_) (fun _ => .pure _) ?_ left number st
  · exact (first number st).bind
  · exact .bind_setting (.fail _)

theorem runCommands_failsWith (h : RunsOnly s r scope c line) {conditional : Conditional}
    {st : Status} {w : World} {e : RunError}
    (failed : (runCommands r conditional scope st r.commands).FailsWith s w e) : e.isProcess := by
  rw [h.commands, runCommands, Action.FailsWith.bind_of_never, runCommand,
    Action.FailsWith.bind_of_never] at failed
  · exact h.run_failsWith failed
  · intro success
    refine .bind (.record _) fun _ => .bind .setting fun s => ?_
    exact .ite (progress_raises st) (.ite haltAfterFailure_raises (progress_raises _))
  · intro p
    cases p <;> exact .pure _

end RunsOnly

/-- Without a condition of the loop, no round is followed by another one. -/
theorem round_ended {number : UInt32} {st : Status} {p : Progress} {w w' : World}
    (once : d.conditional.loop? = none) (h : (round r d scope number st).run s w = (.ok p, w')) :
    ∃ terminal, p = .ended terminal := by
  rw [round, Action.run_record_bind] at h
  obtain ⟨p', w₁, -, h⟩ := Action.run_bind_ok h
  cases p' with
  | ended terminal =>
    cases h
    exact ⟨terminal, rfl⟩
  | goesOn st' =>
    rw [Condition.repeats_eq, once] at h
    rcases stopped?_bind_cases h with ⟨-, h⟩ | ⟨code, -, h⟩ <;> cases h <;> exact ⟨_, rfl⟩

/-- Without a condition of the loop, the rounds are a single one. -/
theorem rounds_once {number : UInt32} {st : Status} {left : Nat} {w : World}
    (once : d.conditional.loop? = none) :
    ((rounds r d scope number st left).run s w).2 = ((round r d scope number st).run s w).2 ∧
      ∀ e, (rounds r d scope number st left).FailsWith s w e →
        (round r d scope number st).FailsWith s w e := by
  unfold Action.FailsWith
  rcases ran : (rounds r d scope number st left).run s w with ⟨x, w'⟩
  rw [rounds] at ran
  rcases Action.run_bind_cases ran with ⟨e, failed, rfl⟩ | ⟨p, w₁, first, later⟩
  · rw [failed]
    exact ⟨rfl, fun e' same => by cases same; rfl⟩
  · obtain ⟨terminal, rfl⟩ := round_ended once first
    cases later
    rw [first]
    exact ⟨rfl, by simp⟩

theorem RunsOnly.round_failsWith (h : RunsOnly s r scope c line) {number : UInt32} {st : Status}
    {w : World} {e : RunError} (once : d.conditional.loop? = none)
    (failed : (round r d scope number st).FailsWith s w e) : e.isProcess := by
  rw [round, Action.FailsWith.record_bind, Action.FailsWith.bind_of_never] at failed
  · exact h.runCommands_failsWith failed
  · intro p
    cases p with
    | ended terminal => exact .pure _
    | goesOn st' =>
      refine .bind ?_ fun again => .bind stopped?_raises fun x => ?_
      · rw [Condition.repeats_eq, once]
        exact .pure false
      · cases x <;> exact .pure _

end Execution

/-- The error of a directive is one of its rule. -/
theorem Execution.failsWith_of_execute {s : Setting} {d : Directive} {w : World} {ruleFile : Path}
    {r : Rule} {e : RunError} (starts : Execution.Starts s w d ruleFile r)
    (failed : (Execution.execute d).FailsWith s w e) :
    ∃ e', (Execution.executeRule r d).FailsWith s
        (w.noted (.executing s.file.path d.identifier)) e' ∧
      e = .within d.identifier ruleFile e' := by
  rw [Action.FailsWith, Execution.execute_of_starts starts] at failed
  unfold Action.FailsWith
  cases result : ((Execution.executeRule r d).run s
    (w.noted (.executing s.file.path d.identifier))).1 with
  | error e' =>
    rw [result] at failed
    cases failed
    exact ⟨e', rfl, rfl⟩
  | ok st =>
    rw [result] at failed
    cases failed

/-! ## Executing the rule -/

namespace Clean

open Execution (RunsOnly StartsEach started)

variable {s : Setting} {d : Directive} {t : String} {w w' : World}

/-- The rule removes what is not the name of the processed file. -/
theorem runsOnly (visible : isBlankText t = false) (other : t ≠ s.file.path.fileName) :
    RunsOnly s rule [(referenceKey, .str t)] command (removal t) where
  commands := rfl
  exit := rfl
  renders w := by rw [render_command, eval_expression visible other]
  given := by simp [removal]

/-- The rule declares no arguments, so only the reference is bound. -/
theorem scope_of_bind {scope : Bindings} (h : (Binding.bind rule d).run s w = (.ok scope, w')) :
    scope = [(referenceKey, Binding.referenceValue d)] := by
  cases Binding.run_bind_ok h
  rfl

theorem bind_of_reference (only : ∀ key ∈ Dict.keys d.parameters, key = referenceKey) :
    (Binding.bind rule d).run s w =
      (.ok [(referenceKey, Binding.referenceValue d)], w.noted (.binding rule.identifier)) := by
  have known : Binding.unknownKeys rule d = [] := by
    refine List.filter_eq_nil_iff.mpr fun key mem => ?_
    simp [only key mem]
  rw [Binding.run_bind_of_declared known]
  rfl

theorem executeRule_startsEach (reference : Binding.referenceValue d = .str t)
    (visible : isBlankText t = false) (other : t ≠ s.file.path.fileName) :
    Action.Keeps (StartsEach s (removal t)) s (Execution.executeRule rule d) := by
  have calls (name : String) (args : List Value) :
      Action.Keeps (StartsEach s (removal t)) s (Helper.call name args) :=
    (Execution.keptByEntries_unmarked.calls name args).mono fun _ _ => .of_does
  intro w
  refine Action.Keeps.bind_from (Binding.bind_keeps calls (fun w name => ?_) _ _ w)
    fun scope w₁ bound => ?_
  · exact .of_does (.noted rfl nofun)
  obtain rfl := scope_of_bind bound
  rw [reference]
  refine Action.Keeps.bind (Condition.allows_keeps calls (fun w e => ?_) _ _) (fun allowed => ?_) _
  · exact .of_does (.noted rfl nofun)
  refine .bind ((Execution.stopped?_does fun _ => rfl).mono fun _ _ => .of_does) fun x => ?_
  split
  · exact .pure _
  · refine .ite (.bind_setting ?_) (.pure _)
    exact (runsOnly visible other).rounds_startsEach _ _ _

section Unconditional

/-! A directive that has no condition, and no parameter but its reference, is always run. -/

variable (reference : Binding.referenceValue d = .str t) (visible : isBlankText t = false)
  (other : t ≠ s.file.path.fileName) (running : w.session.haltCode? s.file.path = none)
  (unconditional : d.conditional = .none)
  (only : ∀ key ∈ Dict.keys d.parameters, key = referenceKey)

include reference running unconditional only

theorem allowed : Execution.Allowed s rule d w [(referenceKey, .str t)]
    (w.noted (.binding rule.identifier)) := by
  refine ⟨w.noted (.binding rule.identifier), ?_, ?_, running⟩
  · rw [bind_of_reference only, reference]
  · rw [unconditional]
    rfl

include visible other

theorem executeRule_marks :
    w.Marks Event.isRoundOrStart (.round 1 :: started s (removal t))
      ((Execution.executeRule rule d).run s w).2 := by
  have once : d.conditional.loop? = none := by rw [unconditional]; rfl
  have binding : w.Does (·.isRoundOrStart = false) (w.noted (.binding rule.identifier)) :=
    .noted rfl nofun
  rw [Execution.executeRule_allowed (allowed reference running unconditional only),
    (Execution.rounds_once once).1]
  simpa using (World.Marks.of_does binding).trans
    ((runsOnly visible other).round_marks 1 .processing _)

theorem executeRule_failsWith {e : RunError}
    (failed : (Execution.executeRule rule d).FailsWith s w e) : e.isProcess := by
  have once : d.conditional.loop? = none := by rw [unconditional]; rfl
  rw [Action.FailsWith,
    Execution.executeRule_allowed (allowed reference running unconditional only)] at failed
  exact (runsOnly visible other).round_failsWith once
    ((Execution.rounds_once once).2 e failed)

end Unconditional

/-- A directive that has no condition, and no parameter but its reference, is run in one round, and
only fails if the process does. -/
theorem execute_unconditional {ruleFile : Path} (starts : Execution.Starts s w d ruleFile rule)
    (reference : Binding.referenceValue d = .str t) (visible : isBlankText t = false)
    (other : t ≠ s.file.path.fileName) (unconditional : d.conditional = .none)
    (only : ∀ key ∈ Dict.keys d.parameters, key = referenceKey) :
    w.Marks Event.isRoundOrStart (.round 1 :: started s (removal t))
        ((Execution.execute d).run s w).2 ∧
      ∀ e, (Execution.execute d).FailsWith s w e → e.root.isProcess := by
  have begun : w.Does (·.isRoundOrStart = false) (w.noted (.executing s.file.path d.identifier)) :=
    .noted rfl nofun
  have running : (w.noted (.executing s.file.path d.identifier)).session.haltCode? s.file.path =
      none := starts.1
  refine ⟨?_, fun e failed => ?_⟩
  · rw [Execution.execute_of_starts starts]
    exact (World.Marks.of_does begun).trans
      (executeRule_marks reference visible other running unconditional only)
  · obtain ⟨e', fails, rfl⟩ := Execution.failsWith_of_execute starts failed
    have process := executeRule_failsWith reference visible other running unconditional only fails
    rwa [RunError.root_within, RunError.root_of_isProcess process]

/-- **What the rule removes.** Let a directive of a file with an absolute path be executed with the
rule as it is shipped. Its reference is the path of a file that it is for, which may be the processed
file, and is not the name of the processed file. So the command never raises its error: whatever the
world, it is the command line that removes the reference, and every round starts it, unless the run is
dry. Without a condition and further parameters there is just one round, and the directive only fails
if the process cannot be started or is stopped. -/
theorem execute_clean {ds attached : List Directive} {ruleFile : Path} {r : Rule}
    (absolute : s.file.path.isAbsolute = true)
    (done : Directive.attach ds s.file.path = .ok attached) (mem : d ∈ attached)
    (starts : Execution.Starts s w d ruleFile r) (shipped : w.files.readText ruleFile = .ok text) :
    ∃ d₀ ∈ ds, ∃ targets, Directive.Targets s.file.path d₀ targets ∧ ∃ target ∈ targets,
      d₀.CopyFor target d ∧ target.text ≠ s.file.path.fileName ∧ r = rule ∧
      (∀ w, (Template.render command.command [(referenceKey, .str target.text)]).run s w =
        (.ok (.command (removal target.text)), w)) ∧
      StartsEach s (removal target.text) w ((Execution.execute d).run s w).2 ∧
      (d.conditional = .none → (∀ key ∈ Dict.keys d.parameters, key = referenceKey) →
        w.Marks Event.isRoundOrStart (.round 1 :: started s (removal target.text))
            ((Execution.execute d).run s w).2 ∧
          ∀ e, (Execution.execute d).FailsWith s w e → e.root.isProcess) := by
  obtain ⟨d₀, mem₀, targets, are, target, among, copy⟩ :=
    Directive.copyFor_of_mem_attach done mem
  obtain rfl := eq_rule_of_load shipped starts.2.2
  have other := target_ne_fileName are absolute among
  have visible : isBlankText target.text = false :=
    isBlankText_of_slash (are.slash_mem absolute target among)
  have reference : Binding.referenceValue d = .str target.text := by
    rw [Binding.referenceValue, Directive.reference?, copy.reference]
    rfl
  refine ⟨d₀, mem₀, targets, are, target, among, copy, other, rfl,
    (runsOnly visible other).renders, ?_, execute_unconditional starts reference visible other⟩
  -- noting the start is neither a round nor a process
  have begun : w.Does (·.isRoundOrStart = false) (w.noted (.executing s.file.path d.identifier)) :=
    .noted rfl (by simp)
  rw [Execution.execute_of_starts starts]
  exact trans_of _ (StartsEach.of_does begun) (executeRule_startsEach reference visible other _)

/-- A world with the file of the rule and a document that asks for it. -/
def shipped : World where
  files := (FileTree.ofTexts [("doc.tex", "% arara: clean\n")]).put ["arara-rule-clean.yaml"]
    (.file (Text.Utf8.encode text))

/-- The directive of that document, attached to it. -/
def directive : Directive where
  identifier := "clean"
  parameters := [("reference", .str "/doc.tex")]
  lineNumbers := [1]

/-- The setting in which the document is processed. -/
def setting : Setting := .ofDocument "doc.tex" false

theorem attach_directive :
    Directive.attach [{ identifier := "clean", lineNumbers := [1] }] setting.file.path =
      .ok [directive] := by
  decide +kernel

theorem readText_shipped :
    shipped.files.readText ⟨"/arara-rule-clean.yaml"⟩ = .ok text :=
  FileTree.readText_put (by simp) (by decide +kernel)

theorem starts_shipped :
    Execution.Starts setting shipped directive ⟨"/arara-rule-clean.yaml"⟩ rule :=
  ⟨by decide +kernel, by decide +kernel, load_of_text readText_shipped (by decide +kernel)⟩

/-- The document itself is what is removed. -/
theorem execute_clean_document :
    setting.file.path.isAbsolute = true ∧
      ∃ target : Path, Dict.lookup referenceKey directive.parameters = some (.str target.text) ∧
        target.text ≠ setting.file.path.fileName ∧
        shipped.Marks Event.isRoundOrStart (.round 1 :: started setting (removal target.text))
          ((Execution.execute directive).run setting shipped).2 := by
  have absolute : setting.file.path.isAbsolute = true := by decide +kernel
  obtain ⟨d₀, -, targets, -, target, -, copy, other, -, -, -, once⟩ :=
    execute_clean absolute attach_directive List.mem_cons_self starts_shipped readText_shipped
  exact ⟨absolute, target, copy.reference, other, (once rfl (by decide)).1⟩

/-- The rule removes the processed file: the process is started that does so, and the error that is to
prevent it is not raised. -/
theorem shipped_removesDocument :
    setting.file.path = ⟨"/doc.tex"⟩ ∧
      Dict.lookup referenceKey directive.parameters = some (.str setting.file.path.text) ∧
      shipped.files.readText ⟨"/arara-rule-clean.yaml"⟩ = .ok text ∧
      Execution.Starts setting shipped directive ⟨"/arara-rule-clean.yaml"⟩ rule ∧
      .launched .command ⟨"/doc.tex"⟩ ⟨["rm", "-f", "/doc.tex"], none⟩ ⟨"/"⟩ ∈
        ((Execution.execute directive).run setting shipped).2.journal ∧
      ∀ e, (Execution.execute directive).FailsWith setting shipped e →
        e.root ≠ .evaluation (.raised "I cannot remove the main file reference.") := by
  obtain ⟨⟨events, lead, marks⟩, fails⟩ := execute_unconditional starts_shipped
    (t := "/doc.tex") rfl (by decide +kernel) (by decide +kernel) rfl (by decide)
  refine ⟨by decide +kernel, by decide +kernel, readText_shipped, starts_shipped, ?_,
    fun e failed raised => ?_⟩
  · have among : Event.launched .command ⟨"/doc.tex"⟩ ⟨["rm", "-f", "/doc.tex"], none⟩ ⟨"/"⟩ ∈
        events.filter Event.isRoundOrStart := by
      rw [marks]
      decide +kernel
    rw [lead.journal]
    exact List.mem_append_left _ (List.mem_reverse.mpr (List.mem_filter.mp among).1)
  · have process := fails e failed
    rw [raised] at process
    exact process

end Clean

end DirectiveRunner
