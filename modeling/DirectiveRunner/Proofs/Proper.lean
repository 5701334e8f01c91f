import DirectiveRunner.Proofs.Ensures
import DirectiveRunner.Proofs.Moment
import DirectiveRunner.Proofs.Print
/-!
# Commands that name a program

A command is *proper* if it has words, none of them blank, so that there is a program to start. Commands
are values like others: they are bound to arguments, stored, put into lists and maps and taken out
again. But only two helpers make them, from the texts among their arguments that are not blank, and
both fail if there is none. Everything else hands on what it is given. So where the commands in all
values at hand are proper, in the scope and in what is stored, evaluation yields values with proper
commands and stores no others (`Expr.eval_proper`, `evaluate_proper`, `Template.render_proper`).
-/

namespace DirectiveRunner

/-! ## Values -/

/-- Whether a command has words, none of them blank. -/
def CommandLine.Proper (c : CommandLine) : Prop :=
  c.arguments ≠ [] ∧ ∀ a ∈ c.arguments, isBlankText a = false

namespace Value

mutual

/-- The commands in a value, at any depth. -/
def commands : Value → List CommandLine
  | .null | .bool _ | .int _ | .str _ => []
  | .list items => commandsOfAll items
  | .map entries => commandsOfEntries entries
  | .command c => [c]
termination_by structural v => v

def commandsOfAll : List Value → List CommandLine
  | [] => []
  | v :: vs => commands v ++ commandsOfAll vs
termination_by structural vs => vs

def commandsOfEntries : List (String × Value) → List CommandLine
  | [] => []
  | (_, v) :: es => commands v ++ commandsOfEntries es
termination_by structural es => es

end

theorem commandsOfAll_eq (vs : List Value) : commandsOfAll vs = vs.flatMap commands := by
  induction vs with
  | nil => rfl
  | cons v vs ih => rw [commandsOfAll, ih, List.flatMap_cons]

theorem commandsOfEntries_eq (es : List (String × Value)) :
    commandsOfEntries es = es.flatMap fun e => e.2.commands := by
  induction es with
  | nil => rfl
  | cons e es ih => rw [commandsOfEntries, ih, List.flatMap_cons]

/-- Whether all commands in a value are proper. -/
def Proper (v : Value) : Prop := ∀ c ∈ v.commands, c.Proper

@[simp] theorem proper_null : Proper .null := nofun

@[simp] theorem proper_bool (b : Bool) : Proper (.bool b) := nofun

@[simp] theorem proper_int (n : Int64) : Proper (.int n) := nofun

@[simp] theorem proper_str (t : String) : Proper (.str t) := nofun

@[simp] theorem proper_command {c : CommandLine} : Proper (.command c) ↔ c.Proper := by
  simp [Proper, commands]

@[simp] theorem proper_list {items : List Value} : Proper (.list items) ↔ ∀ v ∈ items, v.Proper := by
  simp only [Proper, commands, commandsOfAll_eq, List.mem_flatMap]
  constructor
  · intro h e mem c held
    exact h c ⟨e, mem, held⟩
  · rintro h c ⟨e, mem, held⟩
    exact h e mem c held

@[simp] theorem proper_map {entries : Bindings} :
    Proper (.map entries) ↔ ∀ e ∈ entries, e.2.Proper := by
  simp only [Proper, commands, commandsOfEntries_eq, List.mem_flatMap]
  constructor
  · intro h e mem c held
    exact h c ⟨e, mem, held⟩
  · rintro h c ⟨e, mem, held⟩
    exact h e mem c held

theorem proper_ite {p : Prop} [Decidable p] {v u : Value} (hv : v.Proper) (hu : u.Proper) :
    (if p then v else u).Proper := by
  split <;> assumption

mutual

/-- The leaves of a value hold the commands that the value holds. -/
theorem commands_flatten : ∀ v : Value, v.flatten.flatMap commands = v.commands
  | .null | .bool _ | .int _ | .str _ | .command _ => rfl
  | .map es => by simp [flatten]
  | .list items => commands_flattenAll items

theorem commands_flattenAll : ∀ vs : List Value, (flattenAll vs).flatMap commands = commandsOfAll vs
  | [] => rfl
  | v :: vs => by
    rw [flattenAll, List.flatMap_append, commands_flatten v, commands_flattenAll vs, commandsOfAll]

end

theorem Proper.flatten {v : Value} (h : v.Proper) : ∀ u ∈ v.flatten, u.Proper := by
  intro u leaf c mem
  apply h
  rw [← commands_flatten]
  exact List.mem_flatMap.mpr ⟨u, leaf, mem⟩

end Value

/-- Whether all commands in some named values are proper. -/
def Bindings.Proper (b : Bindings) : Prop := ∀ e ∈ b, e.2.Proper

namespace Bindings.Proper

variable {b : Bindings} {key : String} {v : Value}

theorem lookup (h : Bindings.Proper b) (found : Dict.lookup key b = some v) : v.Proper :=
  h _ (Dict.mem_of_lookup found)

theorem getD (h : Bindings.Proper b) (key : String) : ((Dict.lookup key b).getD .null).Proper := by
  cases found : Dict.lookup key b with
  | none => exact Value.proper_null
  | some v => exact h.lookup found

theorem insert (h : Bindings.Proper b) (hv : v.Proper) : Bindings.Proper (Dict.insert key v b) := by
  intro e mem
  rcases Dict.mem_insert.mp mem with rfl | ⟨old, -⟩
  · exact hv
  · exact h e old

end Bindings.Proper

/-- The commands in what a computation yields are proper. -/
abbrev YieldsProper (x : Except EvalError Value) : Prop := Meets Value.Proper (fun _ => True) x

/-! ## Operators -/

namespace Expr

theorem fitting_proper (i : Int) (overflow : String) :
    YieldsProper (fitting i overflow) := by
  unfold fitting
  split <;> simp [Meets]

theorem negated_proper (v : Value) : YieldsProper (negated v) := by
  cases v with
  | int n => exact fitting_proper _ _
  | _ => trivial

theorem elementOf_proper {v : Value} (h : v.Proper) (key : Value) :
    YieldsProper (elementOf v key) := by
  unfold elementOf
  split
  · next items i =>
    split
    · next u found =>
      have listed : u ∈ items := by
        split at found
        · cases found
        · exact List.mem_of_getElem? found
      exact Value.proper_list.mp h u listed
    · trivial
  · exact Bindings.Proper.getD (Value.proper_map.mp h) _
  · trivial

theorem memberOf_proper {v : Value} (h : v.Proper) (name : String) :
    YieldsProper (memberOf name v) := by
  cases v with
  | map entries => exact Bindings.Proper.getD (Value.proper_map.mp h) name
  | _ => trivial

theorem integerOp_proper (op : BinaryOp) (l r : Int64) :
    YieldsProper (integerOp op l r) := by
  unfold integerOp
  split
  all_goals repeat' split
  all_goals first | exact fitting_proper _ _ | exact Value.proper_bool _ | trivial

theorem concatenation_proper {l r : Value} (hl : l.Proper) (hr : r.Proper) :
    YieldsProper (concatenation l r) := by
  unfold concatenation
  split
  · simp only [Meets, Value.proper_list, List.mem_append] at hl hr ⊢
    grind
  · simp only [Meets, Value.proper_list, List.mem_append, List.mem_singleton] at hl ⊢
    grind
  · exact Value.proper_str _
  · exact Value.proper_str _
  · trivial

theorem applyBinary_proper (op : BinaryOp) {l r : Value} (hl : l.Proper) (hr : r.Proper) :
    YieldsProper (applyBinary op l r) := by
  unfold applyBinary
  split
  · exact Value.proper_bool _
  · exact Value.proper_bool _
  · exact integerOp_proper _ _ _
  · exact concatenation_proper hl hr
  · split
    · exact Value.proper_bool _
    · trivial
  · trivial

end Expr

/-! ## Worlds -/

/-- Whether all commands in an event are proper; a process that an expression starts need not come of a
command. -/
def Event.Proper : Event → Prop
  | .launched .command _ line _ => line.Proper
  | .stored _ v | .rendered _ v | .judged _ v _ => v.Proper
  | _ => True

/-- Whether all commands that are stored, and all that have been come upon so far, are proper. -/
structure World.Proper (w : World) : Prop where
  stored : Bindings.Proper w.session.store
  noted : ∀ e ∈ w.journal, e.Proper

namespace World.Proper

variable {w : World}

theorem note (h : w.Proper) {e : Event} (he : e.Proper) : (w.noted e).Proper :=
  ⟨h.stored, List.forall_mem_cons.mpr ⟨he, h.noted⟩⟩

theorem halt (h : w.Proper) (file : Path) (code : Int64) :
    World.Proper { w with session := w.session.halt file code,
                          journal := .halted file code :: w.journal } :=
  ⟨h.stored, List.forall_mem_cons.mpr ⟨trivial, h.noted⟩⟩

theorem snapshot (h : w.Proper) : Bindings.Proper w.session.snapshot := by
  intro e mem
  rw [Session.snapshot_eq] at mem
  rcases Dict.mem_of_mem_setAll mem with property | stored
  · obtain ⟨p, -, rfl⟩ := List.mem_map.mp property
    exact Value.proper_str p.2
  · exact h.stored e stored

end World.Proper

/-- Events may be written down; few of them hold commands. -/
theorem Action.Ensures.note {ε α : Type} {E : ε → Prop} {Q : α → Prop} {s : Setting} {e : Event}
    {f : Unit → Action ε α} (proper : e.Proper) (h : (f ()).Ensures World.Proper E s Q) :
    (Action.record e >>= f).Ensures World.Proper E s Q :=
  .bind (.record fun _ world => world.note proper) fun _ _ => h

/-- Where all commands are proper, the action leaves them so, and `Q` holds of what it yields. -/
abbrev Action.KeepsProper {α : Type} (s : Setting) (a : Action EvalError α) (Q : α → Prop) : Prop :=
  a.Ensures World.Proper (fun _ => True) s Q

/-! ## Helpers -/

namespace Helper

open Value (proper_bool proper_int proper_str proper_null proper_list proper_map)

section

variable {s : Setting} {args : List Value}

/-- What a helper computes or looks up is all that it does. -/
theorem computes (f : Computation) (h : YieldsProper (f args)) {name : String} :
    (Helper.run ⟨name, .computes f⟩ args).KeepsProper s Value.Proper :=
  .ofExcept h

theorem inspects (f : Inspection)
    (h : ∀ w : World, w.Proper → YieldsProper (f s w args)) {name : String} :
    (Helper.run ⟨name, .inspects f⟩ args).KeepsProper s Value.Proper :=
  fun w proper => ⟨proper, h w proper⟩

theorem choose_proper (function : String) (condition : Bool) (given : ∀ a ∈ args, a.Proper) :
    YieldsProper (choose function condition args) := by
  unfold choose
  split
  · exact Value.proper_bool _
  · exact Value.proper_ite (given _ (by simp)) (Value.proper_str "")
  · exact Value.proper_ite (given _ (by simp)) (given _ (by simp))
  · trivial

/-- What commands are made of are texts that are not blank, and there is one at least. -/
theorem commandOf_proper (function : String) (directory : Option Path) (vs : List Value) :
    YieldsProper (commandOf function (visibleTexts vs) directory) := by
  unfold commandOf
  split
  · trivial
  · next some =>
    apply Value.proper_command.mpr
    exact ⟨by simpa using some, fun a mem => visibleTexts_not_blank mem⟩

theorem texts_proper {α : Type} (f : α → String) (xs : List α) :
    (Value.list (xs.map fun x => .str (f x))).Proper := by
  apply Value.proper_list.mpr
  intro v mem
  obtain ⟨x, -, rfl⟩ := List.mem_map.mp mem
  exact Value.proper_str _

/-- Whatever the user enters or chooses is no command. -/
theorem showInput_proper (s : Setting) (w : World) (args : List Value) :
    YieldsProper (showInput s w args) := by
  refine .after fun _ => .after fun _ => .after fun _ => ?_
  split
  · exact Value.proper_str _
  · trivial

theorem showOptions_proper (s : Setting) (w : World) (args : List Value) :
    YieldsProper (showOptions s w args) := by
  refine .after fun _ => .after fun _ => .after fun _ => ?_
  split
  · exact Value.proper_int _
  · trivial

theorem containsKey_proper (args : List Value) :
    YieldsProper (containsKey args) := by
  refine .after fun _ => .after fun key => ?_
  split
  · exact Value.proper_bool _
  · exact Value.proper_bool _
  · trivial
  · trivial

theorem size_proper (args : List Value) : YieldsProper (size args) := by
  refine .after fun _ => ?_
  split <;> first | exact Value.proper_int _ | trivial

theorem found_proper (s : Setting) (w : World) (args : List Value) :
    YieldsProper (found s w args) := by
  refine .after fun _ => .after fun _ => .after fun _ => ?_
  split
  · trivial
  · split
    · split
      · exact Value.proper_bool _
      · trivial
    · exact Value.proper_bool _

theorem readFromFile_proper (s : Setting) (w : World) (args : List Value) :
    YieldsProper (readFromFile s w args) := by
  refine .after fun _ => .after fun _ => ?_
  split
  · exact texts_proper id _
  · exact Value.proper_list.mpr nofun

theorem listFiles_proper (function : String) (wanted : String → Bool) (s : Setting) (w : World)
    (args : List Value) :
    YieldsProper (listFiles function wanted s w args) := by
  refine .after fun _ => .after fun _ => .after fun _ => ?_
  split
  · apply Value.proper_list.mpr
    intro v mem
    obtain ⟨e, -, made⟩ := List.mem_filterMap.mp mem
    dsimp only at made
    split at made
    · split at made <;> cases made
      exact Value.proper_str _
    · cases made
  · trivial

theorem listFilesByPatterns_proper (s : Setting) (w : World) (args : List Value) :
    YieldsProper (listFilesByPatterns s w args) := by
  refine .after fun patterns => ?_
  split
  · trivial
  · exact listFiles_proper _ _ _ _ _

theorem hasChanged_proper (function : String) :
    (hasChanged function args).KeepsProper s fun _ => True := by
  apply Action.Ensures.bind_setting
  apply Action.Ensures.after
  intro target
  apply Action.Ensures.bind .world
  intro w _
  apply Action.Ensures.bind (.modify fun _ world => ⟨world.stored, world.noted⟩)
  intro _ _
  split
  · exact .pure trivial
  · exact .fail trivial

theorem changed_proper : (changed args).KeepsProper s Value.Proper :=
  .after fun _ => .bind (hasChanged_proper _) fun _ _ => .pure (proper_bool _)

theorem unchanged_proper : (unchanged args).KeepsProper s Value.Proper :=
  .after fun _ => .bind (hasChanged_proper _) fun _ _ => .pure (proper_bool _)

theorem halt_proper : (halt args).KeepsProper s Value.Proper := by
  have halts (code : Int64) :
      (Action.halt code : Action EvalError Unit).KeepsProper s fun _ => True := by
    intro w world
    exact ⟨world.halt s.file.path code, trivial⟩
  apply Action.Ensures.after
  intro _
  split
  · exact .bind (halts _) fun _ _ => .pure (proper_bool _)
  · exact .bind (halts _) fun _ _ => .pure (proper_bool _)
  · exact .bind (Q := fun _ => True) (.fail trivial) fun _ _ => .pure (proper_bool _)

theorem putSession_proper (given : ∀ a ∈ args, a.Proper) :
    (putSession args).KeepsProper s Value.Proper := by
  have value : Value.Proper ((args[1]?).getD .null) := by
    cases second : args[1]? with
    | none => exact proper_null
    | some v => exact given v (List.mem_of_getElem? second)
  apply Action.Ensures.after
  intro _
  apply Action.Ensures.after
  intro key w world
  have noted : (w.noted (.stored key ((args[1]?).getD .null))).Proper := world.note value
  exact ⟨⟨world.stored.insert value, noted.noted⟩, proper_null⟩

theorem showMessage_proper : (showMessage args).KeepsProper s Value.Proper :=
  .after fun _ => .after fun _ => .after fun _ => .note trivial (.pure proper_null)

theorem setFiles_proper (files : FileTree) :
    (Action.setFiles files : Action EvalError Unit).KeepsProper s fun _ => True :=
  .modify fun _ world => ⟨world.stored, world.noted⟩

theorem unsafelyExecuteSystemCommand_proper :
    (unsafelyExecuteSystemCommand args).KeepsProper s Value.Proper := by
  have ended (code : Int64) (output : String) :
      (Value.list [.int code, .str output]).Proper := by simp
  apply Action.Ensures.after
  intro _
  apply Action.Ensures.after
  intro command
  split
  · exact .fail trivial
  · apply Action.Ensures.bind_setting
    refine .note trivial ?_
    apply Action.Ensures.bind .world
    intro w _
    apply Action.Ensures.bind (setFiles_proper _)
    intro _ _
    split
    · exact .fail trivial
    · split
      · exact .pure (ended _ _)
      · exact .fail trivial
    · exact .pure (ended _ _)

theorem writeToFile_proper : (writeToFile args).KeepsProper s Value.Proper := by
  apply Action.Ensures.after
  intro _
  apply Action.Ensures.bind_setting
  apply Action.Ensures.after
  intro target
  apply Action.Ensures.after
  intro append
  apply Action.Ensures.bind .world
  intro w _
  split
  · exact .bind (setFiles_proper _) fun _ _ => .pure (proper_bool _)
  · exact .pure (proper_bool _)

/-- Every helper hands on proper commands, if it is given no others. -/
theorem run_proper (given : ∀ a ∈ args, a.Proper) :
    ∀ h ∈ all, (h.run args).KeepsProper s Value.Proper := by
  have chosen (function : String) (condition : Bool) : YieldsProper (choose function condition args) :=
    choose_proper function condition given
  have chosenOfTail (function : String) (condition : Bool) :
      YieldsProper (choose function condition args.tail) :=
    choose_proper function condition fun a mem => given a (List.mem_of_mem_tail mem)
  -- one line for each helper, in the order of the list
  simp only [all, List.forall_mem_cons]
  exact ⟨
    inspects exists? fun _ _ => .after fun _ => .after fun _ => proper_bool _,
    inspects missing fun _ _ => .after fun _ => .after fun _ => proper_bool _,
    changed_proper,
    unchanged_proper,
    inspects found fun _ _ => found_proper _ _ _,
    inspects toFile fun _ _ => .after fun _ => .after fun _ => proper_str _,
    inspects (currentFile _) fun _ _ => .after fun _ => proper_str _,
    inspects showInput fun _ _ => showInput_proper _ _ _,
    inspects showOptions fun _ _ => showOptions_proper _ _ _,
    halt_proper,
    inspects getOriginalFile fun _ _ => .after fun _ => proper_str _,
    inspects (currentFile _) fun _ _ => .after fun _ => proper_str _,
    computes trimSpaces (.after fun _ => .after fun _ => proper_str _),
    computes getBasename (.after fun _ => .after fun _ => proper_str _),
    computes getFiletype (.after fun _ => .after fun _ => proper_str _),
    computes replicatePattern (.after fun _ => .after fun _ => .after fun _ => texts_proper _ _),
    computes raise (.after fun _ => .after fun _ => trivial),
    inspects getSession fun _ proper => .after fun _ => proper_map.mpr proper.snapshot,
    putSession_proper given,
    computes buildString (proper_str _),
    computes getCommand (commandOf_proper _ _ _),
    inspects getCommandWithWorkingDirectory fun _ _ => .after fun _ => commandOf_proper _ _ _,
    inspects isVerboseMode fun _ _ => .after fun _ => proper_bool _,
    inspects isDryRunMode fun _ _ => .after fun _ => proper_bool _,
    showMessage_proper,
    inspects isOnPath fun _ _ => .after fun _ => .after fun _ => proper_bool _,
    unsafelyExecuteSystemCommand_proper,
    inspects listFilesByExtensions fun _ _ => .after fun _ => listFiles_proper _ _ _ _ _,
    inspects listFilesByPatterns fun _ _ => listFilesByPatterns_proper _ _ _,
    writeToFile_proper,
    inspects readFromFile fun _ _ => readFromFile_proper _ _ _,
    inspects isSubdirectory fun _ _ => .after fun _ => .after fun _ => .after fun _ =>
      .after fun _ => .after fun _ => proper_bool _,
    computes isEmpty (.after fun _ => chosenOfTail _ _),
    computes isNotEmpty (.after fun _ => chosenOfTail _ _),
    computes isTrue (.after fun _ => .after fun _ => chosenOfTail _ _),
    computes isFalse (.after fun _ => .after fun _ => chosenOfTail _ _),
    computes (hasType _ _) (.after fun _ => proper_bool _),
    computes (hasType _ _) (.after fun _ => proper_bool _),
    computes (hasType _ _) (.after fun _ => proper_bool _),
    computes (hasType _ _) (.after fun _ => proper_bool _),
    computes containsKey (containsKey_proper _),
    computes size (size_proper _),
    computes (platform _ _) (.after fun _ => chosen _ _),
    computes (platform _ _) (.after fun _ => chosen _ _),
    computes (platform _ _) (.after fun _ => chosen _ _),
    computes (platform _ _) (.after fun _ => chosen _ _),
    inspects isCygwin fun _ _ => .after fun _ => chosen _ _,
    nofun⟩

theorem call_proper (name : String) (given : ∀ a ∈ args, a.Proper) :
    (call name args).KeepsProper s Value.Proper := by
  unfold call
  split
  · next found => exact run_proper given _ (List.mem_of_find?_eq_some found)
  · exact .fail trivial

end

end Helper

/-! ## Expressions and templates -/

namespace Expr

mutual

/-- The values written out in an expression. -/
def literals : Expr → List Value
  | .literal v => [v]
  | .ident _ => []
  | .list items => literalsOfAll items
  | .member target _ => target.literals
  | .index target key => target.literals ++ key.literals
  | .call _ arguments => literalsOfAll arguments
  | .not operand | .negate operand => operand.literals
  | .binary _ left right => left.literals ++ right.literals
  | .choice condition onTrue onFalse => condition.literals ++ onTrue.literals ++ onFalse.literals
  | .sequence statements => literalsOfAll statements
termination_by structural e => e

def literalsOfAll : List Expr → List Value
  | [] => []
  | e :: es => e.literals ++ literalsOfAll es
termination_by structural es => es

end

theorem literalsOfAll_eq (es : List Expr) : literalsOfAll es = es.flatMap literals := by
  induction es with
  | nil => rfl
  | cons e es ih => rw [literalsOfAll, ih, List.flatMap_cons]

/-- Whether the values written out in an expression hold proper commands only. -/
def Proper (e : Expr) : Prop := ∀ v ∈ e.literals, v.Proper

theorem Plain.proper {e : Expr} (h : Plain e) : e.Proper := by
  have all {es : List Expr} (ih : ∀ e ∈ es, e.Proper) : ∀ v ∈ literalsOfAll es, v.Proper := by
    rw [literalsOfAll_eq]
    intro v mem
    obtain ⟨e, listed, held⟩ := List.mem_flatMap.mp mem
    exact ih e listed v held
  induction h with
  | null | bool _ | int _ | str _ => simp [Proper, literals]
  | ident _ _ => simp [Proper, literals]
  | list _ ih | call _ _ _ ih => exact all ih
  | member _ _ ih | not _ ih | negate _ ih => exact ih
  | index _ _ ih ih' | binary _ _ ih ih' => exact List.forall_mem_append.mpr ⟨ih, ih'⟩
  | choice _ _ _ ih ih' ih'' =>
    exact List.forall_mem_append.mpr ⟨List.forall_mem_append.mpr ⟨ih, ih'⟩, ih''⟩

/-- No commands are written out in expressions that are read. -/
theorem proper_of_parse {text : String} {e : Expr} (h : Expr.parse text = .ok e) : e.Proper := by
  cases wellFormed_of_parse h with
  | plain plain => exact plain.proper
  | sequence _ plain =>
    intro v mem
    rw [literals, literalsOfAll_eq] at mem
    obtain ⟨e, listed, held⟩ := List.mem_flatMap.mp mem
    exact (plain e listed).proper v held

variable {s : Setting} {scope : Bindings}

mutual

/-- Where all commands at hand are proper, an expression yields no others and stores no others. -/
theorem eval_proper (bound : Bindings.Proper scope) :
    ∀ e : Expr, e.Proper → (e.eval scope).KeepsProper s Value.Proper
  | .literal v, h => .pure (h v (by simp [literals]))
  | .list items, h =>
    .bind (evalAll_proper bound items h) fun _ proper => .pure (Value.proper_list.mpr proper)
  | .ident name, _ => by
    rw [eval]
    split
    · next found => exact .pure (bound.lookup found)
    · exact .fail trivial
  | .member target name, h =>
    .bind (eval_proper bound target h) fun _ proper => .ofExcept (memberOf_proper proper name)
  | .index target key, h =>
    .bind (eval_proper bound target (List.forall_mem_append.mp h).1) fun _ proper =>
      .bind (eval_proper bound key (List.forall_mem_append.mp h).2) fun _ _ =>
        .ofExcept (elementOf_proper proper _)
  | .call name arguments, h =>
    .bind (evalAll_proper bound arguments h) fun _ given => Helper.call_proper name given
  | .not operand, h =>
    .bind (eval_proper bound operand h) fun _ _ => .after fun _ => .pure (Value.proper_bool _)
  | .negate operand, h => .bind (eval_proper bound operand h) fun _ _ => .ofExcept (negated_proper _)
  | .binary op left right, h => by
    have hl := eval_proper bound left (List.forall_mem_append.mp h).1
    have hr := eval_proper bound right (List.forall_mem_append.mp h).2
    cases op with
    | or =>
      refine .bind hl fun _ _ => .after fun _ => .ite (fun _ => .pure (Value.proper_bool _)) fun _ => ?_
      exact .bind hr fun _ _ => .after fun _ => .pure (Value.proper_bool _)
    | and =>
      refine .bind hl fun _ _ => .after fun _ => .ite (fun _ => .pure (Value.proper_bool _)) fun _ => ?_
      exact .bind hr fun _ _ => .after fun _ => .pure (Value.proper_bool _)
    | _ => exact .bind hl fun _ pl => .bind hr fun _ pr => .ofExcept (applyBinary_proper _ pl pr)
  | .choice condition onTrue onFalse, h => by
    obtain ⟨h, h''⟩ := List.forall_mem_append.mp h
    obtain ⟨h, h'⟩ := List.forall_mem_append.mp h
    refine .bind (eval_proper bound condition h) fun _ _ => .after fun _ => ?_
    exact .ite (fun _ => eval_proper bound onTrue h') fun _ => eval_proper bound onFalse h''
  | .sequence statements, h => evalLast_proper bound statements h Value.proper_null

theorem evalAll_proper (bound : Bindings.Proper scope) :
    ∀ es : List Expr, (∀ v ∈ literalsOfAll es, v.Proper) →
      (evalAll scope es).KeepsProper s fun vs => ∀ v ∈ vs, v.Proper
  | [], _ => .pure nofun
  | e :: es, h =>
    .bind (eval_proper bound e (List.forall_mem_append.mp h).1) fun _ first =>
      .bind (evalAll_proper bound es (List.forall_mem_append.mp h).2) fun _ others =>
        .pure (List.forall_mem_cons.mpr ⟨first, others⟩)

theorem evalLast_proper (bound : Bindings.Proper scope) {last : Value} :
    ∀ es : List Expr, (∀ v ∈ literalsOfAll es, v.Proper) →
      last.Proper → (evalLast scope last es).KeepsProper s Value.Proper
  | [], _, proper => .pure proper
  | e :: es, h, _ =>
    .bind (eval_proper bound e (List.forall_mem_append.mp h).1) fun _ proper =>
      evalLast_proper bound es (List.forall_mem_append.mp h).2 proper

end

end Expr

section

variable {s : Setting} {scope : Bindings} (bound : Bindings.Proper scope)
include bound

theorem evaluate_proper (expression : String) :
    (evaluate expression scope).KeepsProper s Value.Proper :=
  .bind (.ofExcept (.of_ok fun _ read => Expr.proper_of_parse read)) fun e proper =>
    Expr.eval_proper bound e proper

theorem Template.renderSegments_proper :
    ∀ ss : List Segment, (renderSegments scope ss).KeepsProper s fun _ => True
  | [] => .pure trivial
  | .literal _ :: ss => .bind (renderSegments_proper ss) fun _ _ => .pure trivial
  | .block _ :: ss =>
    .bind (evaluate_proper bound _) fun _ _ => .bind (renderSegments_proper ss) fun _ _ =>
      .pure trivial

theorem Template.render_proper (template : String) :
    (render template scope).KeepsProper s Value.Proper := by
  refine .after fun segments => ?_
  split
  · exact evaluate_proper bound _
  · exact .bind (renderSegments_proper bound segments) fun _ _ => .pure (Value.proper_str _)

end

end DirectiveRunner
