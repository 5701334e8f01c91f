import DirectiveRunner.Proofs.Grouping
import DirectiveRunner.Proofs.Journal
import DirectiveRunner.Proofs.Print
import DirectiveRunner.Run.Execution
/-!
# The reference of a directive

A directive that is attached to a file has that file as its reference, and its expressions cannot see
anything else under that name: in the flags and defaults of arguments, in conditions and in commands,
`reference` is the path of the file.

Where a directive evaluates its expressions is said by other evaluators than the one that is used. An
evaluator that is right where `reference` has a given value, and may do anything elsewhere, carries out
an attached directive just as it is carried out (`Evaluator.executeRule_eq`): so it was never asked
elsewhere.

* `Directive.attach_refersTo` — attaching keeps the directives and their order, makes one copy for
  each listed file, and each copy refers to its own file.
-/

namespace DirectiveRunner

namespace Action

variable {ε α β : Type} {a : Action ε α} {f g : α → Action ε β}

/-- What follows an action only matters for what the action can yield. -/
theorem bind_eq_of_yields (later : ∀ s w x w', a.run s w = (.ok x, w') → f x = g x) :
    a >>= f = a >>= g := by
  funext s w
  show (a >>= f).run s w = (a >>= g).run s w
  rw [run_bind, run_bind]
  rcases result : a.run s w with ⟨e | x, w'⟩
  · rfl
  · exact congrArg (fun c => c.run s w') (later s w x w' result)

end Action

/-! ## Evaluators that are right in some scopes -/

namespace Evaluator

/-- The evaluator is right in the scopes of `Q`. -/
def RightOn (ev : Evaluator) (Q : Bindings → Prop) : Prop :=
  ∀ scope, Q scope → ∀ text, ev.render text scope = Template.render text scope ∧
    ev.evaluate text scope = DirectiveRunner.evaluate text scope

variable {ev : Evaluator} {Q : Bindings → Prop} (right : ev.RightOn Q)

include right

theorem argumentValue_eq {d : Directive} (inArguments : Q (Binding.scope d)) (a : Argument) :
    @Binding.argumentValue ev d a = @Binding.argumentValue standard d a := by
  unfold Binding.argumentValue
  simp only [fun text => (right _ inArguments text).1]
  rfl

theorem bindArguments_eq {d : Directive} (inArguments : Q (Binding.scope d)) (bound : Bindings)
    (as : List Argument) :
    @Binding.bindArguments ev d bound as = @Binding.bindArguments standard d bound as := by
  induction as generalizing bound with
  | nil => rfl
  | cons a as ih => simp only [Binding.bindArguments, argumentValue_eq right inArguments, ih]

theorem bind_eq {d : Directive} (inArguments : Q (Binding.scope d)) (r : Rule) :
    @Binding.bind ev r d = @Binding.bind standard r d := by
  unfold Binding.bind
  simp only [bindArguments_eq right inArguments]

section

variable {scope : Bindings} (good : Q scope)

include good

theorem holds_eq (expression : String) :
    @Condition.holds ev expression scope = @Condition.holds standard expression scope := by
  unfold Condition.holds
  rw [(right scope good expression).2]
  rfl

theorem allows_eq (c : Conditional) :
    @Condition.allows ev scope c = @Condition.allows standard scope c := by
  cases c <;> simp only [Condition.allows, holds_eq right good]

theorem repeats_eq (c : Conditional) :
    @Condition.repeats ev scope c = @Condition.repeats standard scope c := by
  cases c <;> simp only [Condition.repeats, holds_eq right good]

theorem run_eq (j : Command.Job) : @Command.run ev j scope = @Command.run standard j scope := by
  unfold Command.run
  rw [(right scope good j.command.command).1]
  rfl

theorem runCommands_eq (r : Rule) (conditional : Conditional) (status : Status)
    (commands : List RuleCommand) : @Execution.runCommands ev r conditional scope status commands =
      @Execution.runCommands standard r conditional scope status commands := by
  induction commands generalizing status with
  | nil => rfl
  | cons command rest ih =>
    simp only [Execution.runCommands, Execution.runCommand, run_eq right good, ih]

theorem round_eq (r : Rule) (d : Directive) (number : UInt32) (status : Status) :
    @Execution.round ev r d scope number status =
      @Execution.round standard r d scope number status := by
  unfold Execution.round
  rw [runCommands_eq right good, repeats_eq right good]

theorem rounds_eq (r : Rule) (d : Directive) (number : UInt32) (status : Status) (left : Nat) :
    @Execution.rounds ev r d scope number status left =
      @Execution.rounds standard r d scope number status left := by
  induction left generalizing number status with
  | zero =>
    rw [@Execution.rounds.eq_def ev, @Execution.rounds.eq_def standard, round_eq right good]
  | succ left ih =>
    rw [@Execution.rounds.eq_def ev, @Execution.rounds.eq_def standard, round_eq right good]
    refine bind_congr fun p => ?_
    cases p with
    | ended terminal => rfl
    | goesOn status => exact ih (number + 1) status

end

/-- Only the scope of the arguments and the scope they are bound to matter for executing a directive. -/
theorem executeRule_eq {r : Rule} {d : Directive} (inArguments : Q (Binding.scope d))
    (inCommands : ∀ s w scope w',
      (@Binding.bind standard r d).run s w = (.ok scope, w') → Q scope) :
    @Execution.executeRule ev r d = @Execution.executeRule standard r d := by
  unfold Execution.executeRule
  rw [bind_eq right inArguments]
  -- from here on there is only one scope, the one that binding yields
  refine Action.bind_eq_of_yields fun s w scope w' bound => ?_
  have good : Q scope := inCommands s w scope w' bound
  rw [allows_eq right good]
  simp only [rounds_eq right good]

end Evaluator

/-! ## The scopes of a directive -/

/-- In a scope, `reference` has a value, whatever else there is. -/
def ReferenceIs (v : Value) (scope : Bindings) : Prop :=
  ∀ s w, (evaluate referenceKey scope).run s w = (.ok v, w)

/-- A name has the value that the scope gives it. -/
theorem evaluate_ident {source name : String} {scope : Bindings} {v : Value}
    (h : Expr.tokenize source.toList = .ok [.ident name])
    (unreserved : name ∉ Grammar.constants.map Prod.fst) (expression : name ≠ "return")
    (found : Dict.lookup name scope = some v) : evaluate source scope = pure v := by
  rw [evaluate_of_parse (Expr.parse_ident h unreserved expression), Expr.eval, found]

theorem referenceIs_of_lookup {v : Value} {scope : Bindings}
    (h : Dict.lookup referenceKey scope = some v) : ReferenceIs v scope := by
  have named : Expr.IsName referenceKey :=
    Expr.isName_iff.mpr ⟨'r', "eference".toList, rfl, by decide,
      List.all_eq_true.mp (by decide +kernel)⟩
  intro s w
  rw [evaluate_ident named (by decide) (by decide) h]
  rfl

theorem referenceIs_scope (d : Directive) : ReferenceIs (Binding.referenceValue d) (Binding.scope d) :=
  referenceIs_of_lookup (Dict.lookup_insert_self _ _ _)

namespace Rule

/-- No argument of a loaded rule is called `reference`. -/
theorem not_reference_of_load {files : FileTree} {path : Path} {identifier : String} {r : Rule}
    (h : load files path identifier = .ok r) : ∀ a ∈ r.arguments, a.identifier ≠ referenceKey :=
  (argumentProblem?_eq_none_iff.mp (problem?_eq_none_iff.mp (problem?_of_load h)).2.2).1

end Rule

namespace Binding

section

variable {r : Rule} {d : Directive} {s : Setting} {w w' : World} {bound : Bindings}

/-- If there are parameters that the rule does not declare, nothing is evaluated. -/
theorem run_bind_of_undeclared (some : unknownKeys r d ≠ []) :
    (bind r d).run s w =
      (.error (.unknownArgument (unknownKeys r d)), w.noted (.binding r.identifier)) := by
  rw [bind, Action.run_record_bind]
  split
  · next none => exact absurd none some
  · rfl

theorem run_bind_of_declared (none : unknownKeys r d = []) :
    (bind r d).run s w =
      (bindArguments d [(referenceKey, referenceValue d)] r.arguments).run s
        (w.noted (.binding r.identifier)) := by
  rw [bind, Action.run_record_bind, none]

theorem run_bind_ok (binds : (bind r d).run s w = (.ok bound, w')) :
    (bindArguments d [(referenceKey, referenceValue d)] r.arguments).run s
      (w.noted (.binding r.identifier)) = (.ok bound, w') := by
  by_cases none : unknownKeys r d = []
  · rw [← run_bind_of_declared none, binds]
  · rw [run_bind_of_undeclared none] at binds
    cases binds

end

theorem lookup_of_bindArguments {d : Directive} {as : List Argument}
    (h : ∀ a ∈ as, a.identifier ≠ referenceKey) {bound scope : Bindings} {s : Setting} {w w' : World}
    (binds : (bindArguments d bound as).run s w = (.ok scope, w')) :
    Dict.lookup referenceKey scope = Dict.lookup referenceKey bound := by
  -- every argument sets a key of its own, and none of them is the reference
  induction as generalizing bound w with
  | nil =>
    cases binds
    rfl
  | cons a as ih =>
    obtain ⟨first, later⟩ := List.forall_mem_cons.mp h
    obtain ⟨v, w₁, -, binds⟩ := Action.run_bind_ok binds
    rw [ih later binds, Dict.lookup_insert_of_ne (Ne.symm first)]

/-- Binding the arguments of a loaded rule leaves the reference as it is. -/
theorem referenceIs_of_bind {r : Rule} (h : ∀ a ∈ r.arguments, a.identifier ≠ referenceKey)
    {d : Directive} {s : Setting} {w w' : World} {scope : Bindings}
    (binds : (bind r d).run s w = (.ok scope, w')) : ReferenceIs (referenceValue d) scope := by
  refine referenceIs_of_lookup ?_
  rw [lookup_of_bindArguments h (run_bind_ok binds), Dict.lookup_cons, if_pos rfl]

end Binding

/-- All that a directive evaluates when it is executed with a rule sees the same value under
`reference`. -/
structure Execution.Sees (r : Rule) (d : Directive) (v : Value) : Prop where
  /-- In the flags and the defaults of arguments. -/
  inArguments : ReferenceIs v (Binding.scope d)
  /-- In the scope that the arguments are bound to. -/
  inCommands : ∀ s w scope w', (Binding.bind r d).run s w = (.ok scope, w') → ReferenceIs v scope
  /-- The conditions before and after each round and the commands are evaluated nowhere else. -/
  everywhere : ∀ ev : Evaluator, ev.RightOn (ReferenceIs v) →
    @Execution.executeRule ev r d = @Execution.executeRule .standard r d

theorem Execution.sees_referenceValue {r : Rule}
    (h : ∀ a ∈ r.arguments, a.identifier ≠ referenceKey) (d : Directive) :
    Execution.Sees r d (Binding.referenceValue d) where
  inArguments := referenceIs_scope d
  inCommands _ _ _ _ := Binding.referenceIs_of_bind h
  everywhere _ right :=
    Evaluator.executeRule_eq right (referenceIs_scope d) fun _ _ _ _ => Binding.referenceIs_of_bind h

namespace Directive

/-! ## Attaching directives to files -/

/-- The names that a list of files gives, or the name of a single file. -/
inductive Lists : Value → List String → Prop
  | one (name : String) : Lists (.str name) [name]
  | many {names : List String} : names ≠ [] → Lists (.list (names.map .str)) names

/-- The files a directive is for: those it lists, in the directory of the file it was read from, or
that file itself. -/
inductive Targets (file : Path) (d : Directive) : List Path → Prop
  | itself : Dict.lookup filesKey d.parameters = none → Targets file d [file]
  | listed {files : Value} {names : List String} : Dict.lookup filesKey d.parameters = some files →
    Lists files names → Targets file d (names.map (file.parent?.getD ⟨"."⟩).join)

/-- A copy of a directive for a file: it has the file as its reference, lists no files, and is the same
otherwise. -/
structure CopyFor (d : Directive) (target : Path) (copy : Directive) : Prop where
  identifier : copy.identifier = d.identifier
  conditional : copy.conditional = d.conditional
  lineNumbers : copy.lineNumbers = d.lineNumbers
  reference : Dict.lookup referenceKey copy.parameters = some (.str target.text)
  files : Dict.lookup filesKey copy.parameters = none
  others : ∀ key, key ≠ referenceKey → key ≠ filesKey →
    Dict.lookup key copy.parameters = Dict.lookup key d.parameters

/-- Whatever rule a directive is executed with, it sees the path of a file under `reference`. -/
def RefersTo (d : Directive) (target : Path) : Prop :=
  ∀ files path identifier r, Rule.load files path identifier = .ok r →
    Execution.Sees r d (.str target.text)

/-- The copies of a directive: one for each file it is for, in their order, which refers to that
file. -/
def CopiedTo (file : Path) (d : Directive) (cs : List Directive) : Prop :=
  ∃ targets, Targets file d targets ∧
    List.Forall₂ (fun target copy => d.CopyFor target copy ∧ copy.RefersTo target) targets cs

theorem CopyFor.refersTo {d copy : Directive} {target : Path} (h : d.CopyFor target copy) :
    copy.RefersTo target := by
  intro files path identifier r loaded
  have value : Binding.referenceValue copy = .str target.text := by
    rw [Binding.referenceValue, reference?, h.reference]
    rfl
  rw [← value]
  exact Execution.sees_referenceValue (Rule.not_reference_of_load loaded) copy

theorem copyFor_withReference {d : Directive} {parameters : Bindings}
    (without : Dict.lookup filesKey parameters = none)
    (same : ∀ key, key ≠ filesKey → Dict.lookup key parameters = Dict.lookup key d.parameters)
    (target : Path) : d.CopyFor target (withReference { d with parameters } target) where
  identifier := rfl
  conditional := rfl
  lineNumbers := rfl
  reference := Dict.lookup_insert_self _ _ _
  files := (Dict.lookup_insert_of_ne (by decide) _ _).trans without
  others key other other' := (Dict.lookup_insert_of_ne other _ _).trans (same key other')

theorem fileNames_eq_ok_iff {v : Value} {names : List String} :
    fileNames v = .ok names ↔ Lists v names := by
  constructor
  · intro h
    cases v with
    | str name =>
      cases h
      exact .one name
    | list items =>
      cases items with
      | nil => cases h
      | cons item items =>
        have read := mapM_eq_ok_iff.mp h
        -- each item is a string, since reading it did not fail
        have listed : item :: items = names.map .str := by
          refine List.forall₂_eq_eq_eq ▸ List.forall₂_map_right_iff.mpr (read.imp ?_)
          intro item name h
          split at h <;> cases h
          rfl
        rw [listed]
        refine .many ?_
        rintro rfl
        cases listed
    | _ => cases h
  · rintro (name | several)
    · rfl
    · obtain ⟨name, names, rfl⟩ := List.exists_cons_of_ne_nil several
      refine mapM_eq_ok_iff.mpr ?_
      rw [List.forall₂_map_left_iff, List.forall₂_same]
      exact fun _ _ => rfl

theorem copiedTo_of_copies {file : Path} {d : Directive} {cs : List Directive}
    (h : copies file d = .ok cs) : CopiedTo file d cs := by
  unfold copies at h
  split at h
  · next without =>
    cases h
    have copied : d.CopyFor file (d.withReference file) :=
      copyFor_withReference without (fun _ _ => rfl) file
    exact ⟨[file], .itself without, .cons ⟨copied, copied.refersTo⟩ .nil⟩
  · next files listing =>
    dsimp only at h
    split at h
    · next names listed =>
      cases h
      refine ⟨_, .listed listing (fileNames_eq_ok_iff.mp listed), ?_⟩
      rw [List.forall₂_map_left_iff, List.forall₂_map_right_iff, List.forall₂_same]
      intro name _
      have copied := copyFor_withReference (d := d) (Dict.lookup_erase_self filesKey d.parameters)
        (fun key other => Dict.lookup_erase_of_ne other d.parameters)
        ((file.parent?.getD ⟨"."⟩).join name)
      exact ⟨copied, copied.refersTo⟩
    · cases h

/-- A directive can be copied if it lists no files, or a name, or names. -/
theorem exists_copies_iff {file : Path} {d : Directive} :
    (∃ cs, copies file d = .ok cs) ↔ ∃ targets, Targets file d targets := by
  constructor
  · rintro ⟨cs, h⟩
    obtain ⟨targets, are, -⟩ := copiedTo_of_copies h
    exact ⟨targets, are⟩
  · rintro ⟨targets, without | ⟨listing, lists⟩⟩
    · exact ⟨_, by rw [copies, without]⟩
    · have listed := fileNames_eq_ok_iff.mpr lists
      exact ⟨_, by simp only [copies, listing, listed]; rfl⟩

/-- Directives are extracted without a reference. -/
theorem no_reference_of_extract {lines : List String} {headerOnly : Bool} {type : FileType}
    {ds : List Directive} (h : extract lines headerOnly type = .ok ds) :
    ∀ d ∈ ds, Dict.lookup referenceKey d.parameters = none := by
  intro d mem
  obtain ⟨r, read⟩ := ofRaw_of_mem_extract h mem
  obtain ⟨f, -, made⟩ := ofRaw_eq_ok_iff.mp read
  obtain ⟨parameters, -, unreserved, rfl⟩ := ofForm_eq_ok_iff.mp made
  exact Dict.lookup_eq_none (by simpa [Dict.contains] using unreserved)

/-- **What directives refer to.** The directives of a text can be attached to a file if what they list
are names, and they are attached in their order: each becomes one copy for each file it is for, and each
copy refers to its file, whatever the parameters of the directive and the arguments of the rule are. -/
theorem attach_refersTo {lines : List String} {headerOnly : Bool} {type : FileType}
    {ds : List Directive} (extracted : extract lines headerOnly type = .ok ds) (file : Path) :
    (∀ d ∈ ds, Dict.lookup referenceKey d.parameters = none) ∧
    ((∃ attached, attach ds file = .ok attached) ↔ ∀ d ∈ ds, ∃ targets, Targets file d targets) ∧
    ∀ attached, attach ds file = .ok attached →
      ∃ copied : List (List Directive),
        attached = copied.flatten ∧ List.Forall₂ (CopiedTo file) ds copied := by
  have done_iff (attached : List Directive) : attach ds file = .ok attached ↔
      ∃ copied, ds.mapM (copies file) = .ok copied ∧ attached = copied.flatten := by
    unfold attach
    cases ds.mapM (copies file) with
    | error e => exact ⟨nofun, nofun⟩
    | ok copied =>
      constructor
      · rintro ⟨⟩
        exact ⟨copied, rfl, rfl⟩
      · rintro ⟨_, ⟨⟩, rfl⟩
        rfl
  refine ⟨no_reference_of_extract extracted, ?_, fun attached done => ?_⟩
  · simp only [done_iff, ← exists_copies_iff, ← exists_mapM_eq_ok_iff]
    constructor
    · rintro ⟨_, copied, each, -⟩
      exact ⟨copied, each⟩
    · rintro ⟨copied, each⟩
      exact ⟨_, copied, each, rfl⟩
  · obtain ⟨copied, each, rfl⟩ := (done_iff attached).mp done
    exact ⟨copied, rfl, (mapM_eq_ok_iff.mp each).imp fun _ _ => copiedTo_of_copies⟩

theorem attach_refersTo_indices :
    let lines := ["% arara: makeindex: \x7b style: x, files: [a.idx, b.idx] \x7d", "% arara: clean"]
    let file : Path := ⟨"/work/doc.tex"⟩
    let indices : Directive := ⟨"makeindex",
      [("files", .list [.str "a.idx", .str "b.idx"]), ("style", .str "x")], .none, [1]⟩
    let index (name : String) : Directive := ⟨"makeindex",
      [("reference", .str name), ("style", .str "x")], .none, [1]⟩
    let ds := [indices, ⟨"clean", [], .none, [2]⟩]
    let attached := [index "/work/a.idx", index "/work/b.idx",
      ⟨"clean", [("reference", .str "/work/doc.tex")], .none, [2]⟩]
    extract lines false .tex = .ok ds ∧ attach ds file = .ok attached ∧
      (∀ d ∈ ds, ∃ targets, Targets file d targets) ∧
      ∃ copied : List (List Directive),
        attached = copied.flatten ∧ List.Forall₂ (CopiedTo file) ds copied := by
  intro lines file indices index ds attached
  have extracted : extract lines false .tex = .ok ds := by decide +kernel
  have done : attach ds file = .ok attached := by decide +kernel
  obtain ⟨-, possible, copied⟩ := attach_refersTo extracted file
  exact ⟨extracted, done, possible.mp ⟨attached, done⟩, copied attached done⟩

end Directive

end DirectiveRunner
