import DirectiveRunner.Proofs.Binding
import DirectiveRunner.Proofs.CutOff
import DirectiveRunner.Proofs.Print
import DirectiveRunner.Proofs.Template
import Mathlib.Data.List.Nodup
/-!
# Arguments that a directive supplies

An argument has up to two templates. The flag is rendered only if the directive supplies the argument,
and then the default is not. But a supplied argument without a flag is bound to its default all the
same, and what the directive supplies for it is not looked at (`bind_reads`).

A flag that consists of the name of its argument passes on what the directive supplies, whatever kind
of value that is. The one name for which it does not is `parameters`, under which flags see all
parameters (`bind_named`).
-/

namespace DirectiveRunner

namespace Binding

variable {s : Setting} {d : Directive} {w w' : World} {a a' : Argument}

/-! ## Which templates count -/

/-- Arguments that differ at most in templates that do not count for a directive: the flag does if the
argument is supplied, and the default does unless the argument is supplied and has a flag. -/
structure Alike (d : Directive) (a a' : Argument) : Prop where
  identifier : a'.identifier = a.identifier
  required : a'.required = a.required
  flag : Supplied d a → a'.flag = a.flag
  default : ¬(Supplied d a ∧ a.flag ≠ none) → a'.default = a.default

namespace Alike

theorem supplied_iff (h : Alike d a a') : Supplied d a' ↔ Supplied d a := by
  rw [Supplied, Supplied, h.identifier]

theorem boundBy (h : Alike d a a') {source : Option (ArgumentPart × String)}
    (hb : BoundBy d a source) : BoundBy d a' source := by
  have still (unflagged : ¬(Supplied d a ∧ a.flag ≠ none)) :
      ¬(Supplied d a' ∧ a'.flag ≠ none) := by
    rintro ⟨supplied, flagged⟩
    have supplied := h.supplied_iff.mp supplied
    exact unflagged ⟨supplied, h.flag supplied ▸ flagged⟩
  cases hb with
  | flag supplied hf => exact .flag (h.supplied_iff.mpr supplied) ((h.flag supplied).trans hf)
  | default unflagged hd => exact .default (still unflagged) ((h.default unflagged).trans hd)
  | nothing unflagged hd => exact .nothing (still unflagged) ((h.default unflagged).trans hd)

theorem argumentValue_eq (h : Alike d a a') : argumentValue d a' = argumentValue d a := by
  by_cases missing : a.required = true ∧ ¬Supplied d a
  · obtain ⟨required, absent⟩ := missing
    rw [argumentValue_of_missing required absent,
      argumentValue_of_missing (h.required.trans required) (mt h.supplied_iff.mp absent),
      h.identifier]
  · have present : a.required = true → Supplied d a := by simpa using missing
    obtain ⟨source, hb⟩ := exists_boundBy d a
    have present' : a'.required = true → Supplied d a' := fun required =>
      h.supplied_iff.mpr (present (h.required.symm.trans required))
    rw [argumentValue_of_boundBy present hb, argumentValue_of_boundBy present' (h.boundBy hb)]
    simp only [valueFrom, h.identifier]

theorem bindArguments_eq {as as' : List Argument} (h : List.Forall₂ (Alike d) as as') :
    ∀ bound, bindArguments d bound as' = bindArguments d bound as := by
  induction h with
  | nil => exact fun _ => rfl
  | cons first _ ih =>
    intro bound
    simp only [bindArguments, first.argumentValue_eq, first.identifier, ih]

theorem any_eq {as as' : List Argument} (h : List.Forall₂ (Alike d) as as') (key : String) :
    as'.any (·.identifier = key) = as.any (·.identifier = key) := by
  induction h with
  | nil => rfl
  | cons first _ ih => simp only [List.any_cons, first.identifier, ih]

theorem bind_eq {r : Rule} {as : List Argument} (h : List.Forall₂ (Alike d) r.arguments as) :
    bind { r with arguments := as } d = bind r d := by
  simp only [bind, unknownKeys, any_eq h, bindArguments_eq h]

/-- The default does not count for an argument that is supplied and has a flag. -/
theorem of_flagged (supplied : Supplied d a) (flagged : a.flag ≠ none) (t : Option String) :
    Alike d a { a with default := t } where
  identifier := rfl
  required := rfl
  flag _ := rfl
  default unflagged := absurd ⟨supplied, flagged⟩ unflagged

end Alike

theorem Fails.run {e : RunError} (h : Fails s d w a e w') :
    (argumentValue d a).run s w = (.error e, w') := by
  cases h with
  | missing required absent =>
    rw [argumentValue_of_missing required absent]
    rfl
  | rendering present hb rendered =>
    rw [argumentValue_of_boundBy present hb, valueFrom, Action.run_mapError, rendered]
    rfl

theorem Takes.boundBy {v : Value} (h : Takes s d w a v w') :
    ∃ source, BoundBy d a source ∧ argumentValue d a = valueFrom d a source := by
  cases h with
  | rendered present hb _ | empty present hb => exact ⟨_, hb, argumentValue_of_boundBy present hb⟩

theorem Takes.run {v : Value} (h : Takes s d w a v w') :
    (argumentValue d a).run s w = (.ok v, w') := by
  cases h with
  | rendered present hb rendered =>
    rw [argumentValue_of_boundBy present hb, valueFrom, Action.run_mapError, rendered]
    rfl
  | empty present hb =>
    rw [argumentValue_of_boundBy present hb]
    rfl

/-- Each of the arguments that are bound in turn has taken the value that is found for it. -/
theorem InTurn.lookup {as : List Argument} {vs : List Value} {bound : Bindings}
    (h : InTurn s d w as vs w')
    (found : List.Forall₂ (fun a v => Dict.lookup a.identifier bound = some v) as vs) (ha : a ∈ as) :
    ∃ v w₁ w₂, Takes s d w₁ a v w₂ ∧ Dict.lookup a.identifier bound = some v := by
  induction h with
  | nil => cases ha
  | cons takes _ ih =>
    obtain ⟨first, later⟩ := List.forall₂_cons.mp found
    rcases List.mem_cons.mp ha with rfl | ha
    · exact ⟨_, _, _, takes, first⟩
    · exact ih later ha

theorem bind_error {r : Rule} {e : RunError} (h : (bind r d).run s w = (.error e, w')) :
    ((∃ key, Undeclared r d key) ∧ e = .unknownArgument (unknownKeys r d)) ∨
      ∃ a ∈ r.arguments, ∃ w₁, Fails s d w₁ a e w' := by
  by_cases none : unknownKeys r d = []
  · rw [run_bind_of_declared none] at h
    rcases bindArguments_cases s d r.arguments [(referenceKey, referenceValue d)]
        (w.noted (.binding r.identifier)) with
      ⟨before, a, after, _, w₁, e', w₂, split, -, fails, ran⟩ | ⟨_, _, _, -, -, ran⟩
    · obtain ⟨rfl, rfl⟩ : e = e' ∧ w' = w₂ := by simpa using h.symm.trans ran
      exact .inr ⟨a, by simp [split], w₁, fails⟩
    · rw [ran] at h
      cases h
  · rw [run_bind_of_undeclared none] at h
    obtain ⟨key, listed⟩ := List.exists_mem_of_ne_nil _ none
    cases h
    exact .inl ⟨⟨key, mem_unknownKeys.mp listed⟩, rfl⟩

/-- When `bind` yields, every argument has the value that it took. -/
theorem lookup_of_bind {r : Rule} (nodup : (r.arguments.map (·.identifier)).Nodup) {bound : Bindings}
    (h : (bind r d).run s w = (.ok bound, w')) (ha : a ∈ r.arguments) :
    ∃ v w₁ w₂, Takes s d w₁ a v w₂ ∧ Dict.lookup a.identifier bound = some v := by
  have h := run_bind_ok h
  rcases bindArguments_cases s d r.arguments [(referenceKey, referenceValue d)]
      (w.noted (.binding r.identifier)) with
    ⟨_, _, _, _, _, _, _, -, -, -, ran⟩ | ⟨vs, bound', w₁, inTurn, sets, ran⟩
  · rw [ran] at h
    cases h
  · obtain ⟨rfl, rfl⟩ : bound = bound' ∧ w' = w₁ := by simpa using h.symm.trans ran
    exact inTurn.lookup (sets.values nodup) ha

/-- A supplied argument without a flag is bound by its default. -/
theorem argumentValue_flagless (supplied : Supplied d a) (flagless : a.flag = none) (t : String) :
    argumentValue d { a with default := some t } =
      (Template.render t (scope d)).mapError (.argumentEvaluation a.identifier .default) := by
  have unflagged : ¬(Supplied d a ∧ a.flag ≠ none) := by simp [flagless]
  exact argumentValue_of_boundBy (a := { a with default := some t }) (fun _ => supplied)
    (.default unflagged rfl)

/-- The default of a supplied argument does not count exactly if the argument has a flag. -/
theorem argumentValue_default_iff (supplied : Supplied d a) :
    (∀ t, argumentValue d { a with default := t } = argumentValue d a) ↔ a.flag ≠ none := by
  constructor
  · -- without a flag the defaults `x` and `y` give two values
    intro ignored flagless
    have x := (argumentValue_flagless supplied flagless "x").symm.trans (ignored (some "x"))
    have y := (argumentValue_flagless supplied flagless "y").symm.trans (ignored (some "y"))
    have same : (pure (.str "x") : Action RunError Value) = pure (.str "y") := x.trans y.symm
    have results := congrArg (fun action => (action.run (.ofDocument "doc.tex" true) {}).1) same
    simp at results
  · exact fun flagged t => (Alike.of_flagged supplied flagged t).argumentValue_eq

/-- **Which templates are rendered.** Templates that do not count may be replaced by any others, or
left out, and binding is the same in every world: the flag of an argument that is not supplied, and
the default of one that is supplied and has a flag. For supplied arguments this is exact: a default
plays no part if and only if there is a flag. An error in a template is one of a template that counts,
and if nothing fails each argument has the value of the template that counts for it, or is empty. -/
theorem bind_reads {files : FileTree} {path : Path} {identifier : String} {r : Rule}
    (loaded : Rule.load files path identifier = .ok r) (d : Directive) :
    (∀ as, List.Forall₂ (Alike d) r.arguments as →
      bind { r with arguments := as } d = bind r d) ∧
    (∀ a ∈ r.arguments, Supplied d a →
      ((∀ t, argumentValue d { a with default := t } = argumentValue d a) ↔ a.flag ≠ none)) ∧
    (∀ s w name part e w',
      (bind r d).run s w = (.error (.argumentEvaluation name part e), w') →
      ∃ a ∈ r.arguments, a.identifier = name ∧ ∃ t, BoundBy d a (some (part, t))) ∧
    ∀ s w bound w', (bind r d).run s w = (.ok bound, w') → ∀ a ∈ r.arguments,
      ∃ v w₁ w₂ source, BoundBy d a source ∧ (valueFrom d a source).run s w₁ = (.ok v, w₂) ∧
        Dict.lookup a.identifier bound = some v := by
  refine ⟨fun as => Alike.bind_eq, fun a _ => argumentValue_default_iff, ?_, ?_⟩
  · intro s w name part e w' failed
    rcases bind_error failed with ⟨-, unknown⟩ | ⟨a, ha, w₁, fails⟩
    · cases unknown
    · cases fails with
      | rendering _ hb _ => exact ⟨a, ha, rfl, _, hb⟩
  · intro s w bound w' yields a ha
    obtain ⟨v, w₁, w₂, takes, found⟩ := lookup_of_bind (Rule.nodup_of_load loaded) yields ha
    obtain ⟨source, hb, same⟩ := takes.boundBy
    exact ⟨v, w₁, w₂, source, hb, same ▸ takes.run, found⟩

/-- What the flag of `close` and the default of `name` are does not matter for a directive that only
gives a name. -/
theorem bind_reads_greeting :
    let known : Directive := { identifier := "greet", parameters := [("name", .str "Ann")] }
    Rule.load greetingWorld.files ⟨"/greet.yaml"⟩ "greet" = .ok greeting ∧
      bind { greeting with arguments :=
        [{ identifier := "name", required := true, flag := some "Dear @\x7b name \x7d",
           default := some "@\x7b halt(1) \x7d" },
          { identifier := "close", flag := some "@\x7b halt(2) \x7d", default := some "Yours" }] }
        known = bind greeting known := by
  intro known
  have loaded : Rule.load greetingWorld.files ⟨"/greet.yaml"⟩ "greet" = .ok greeting := by
    decide +kernel
  have name : Supplied known { identifier := "name" } := by unfold Supplied; decide
  have close : ¬Supplied known { identifier := "close" } := by unfold Supplied; decide
  refine ⟨loaded, (bind_reads loaded known).1 _ (.cons ?_ (.cons ?_ .nil))⟩
  · exact ⟨rfl, rfl, fun _ => rfl, fun unflagged => absurd ⟨name, by simp⟩ unflagged⟩
  · exact ⟨rfl, rfl, fun supplied => absurd supplied close, fun _ => rfl⟩

/-- The rule `stop` declares an argument without a flag. If it is supplied, its default is rendered
none the less: it halts the file, and its value takes the place of what was supplied. -/
theorem haltedByDefault_supplied :
    let s := Setting.ofDocument "doc.tex" true
    let d : Directive := { identifier := "stop", parameters := [("code", .str "1")] }
    Rule.load Execution.haltedByDefault.files ⟨"/stop.yaml"⟩ "stop" = .ok Execution.stopRule ∧
      (∀ a ∈ Execution.stopRule.arguments, Supplied d a) ∧
      Execution.haltedByDefault.session.haltCode? s.file.path = none ∧
      ((bind Execution.stopRule d).run s Execution.haltedByDefault).1.toOption =
        some [("code", .bool true), ("reference", .null)] ∧
      ((bind Execution.stopRule d).run s Execution.haltedByDefault).2.session.haltCode?
        s.file.path = some 7 := by
  unfold Supplied
  decide +kernel

/-! ## Flags that pass on what is supplied -/

/-- The template with one block, which holds a name. -/
def naming (name : String) : String := "@\x7b " ++ name ++ " \x7d"

/-- The name has its value there, whatever kind of value that is. -/
theorem render_naming {name : String} (named : Expr.IsName name)
    (unreserved : name ∉ Grammar.constants.map Prod.fst) (expression : name ≠ "return")
    {scope : Bindings} {v : Value} (found : Dict.lookup name scope = some v) :
    Template.render (naming name) scope = pure v := by
  have spaced : Expr.Spaced [.ident name] (' ' :: (name.toList ++ [' '])) :=
    .blank (by decide) (.token (t := .ident name) (by simp; decide) (.blank (by decide) .nil))
  have tokens : Expr.tokenize (' ' :: (name.toList ++ [' '])) = .ok [.ident name] :=
    Expr.tokenize_of_spaced spaced (by simpa using named)
  have written : (naming name).toList =
      (Template.Segment.block (' ' :: (name.toList ++ [' ']))).written := by
    simp [naming, Template.Segment.written, Template.opening]
  rw [Template.render_block (Template.split_block written (Expr.tokenize_eq_ok_iff.mp tokens))]
  exact evaluate_ident (by rwa [String.toList_ofList]) unreserved expression found

/-- An argument is bound to a value: it takes it, whatever the world, and is bound to it whenever
`bind` yields; and if `bind` fails, it is not because of this argument. -/
structure BoundTo (r : Rule) (d : Directive) (a : Argument) (v : Value) : Prop where
  takes : argumentValue d a = pure v
  binds : ∀ s w bound w', (bind r d).run s w = (.ok bound, w') →
    Dict.lookup a.identifier bound = some v
  fails : ∀ s w e w', (bind r d).run s w = (.error e, w') → (∃ key, Undeclared r d key) ∨
    ∃ b ∈ r.arguments, b.identifier ≠ a.identifier ∧ ∃ w₁, Fails s d w₁ b e w'

theorem boundTo_of_takes {r : Rule} {v : Value} (nodup : (r.arguments.map (·.identifier)).Nodup)
    (ha : a ∈ r.arguments) (takes : argumentValue d a = pure v) : BoundTo r d a v where
  takes := takes
  binds s w bound w' yields := by
    obtain ⟨v', w₁, w₂, took, found⟩ := lookup_of_bind nodup yields ha
    have ran := took.run
    rw [takes, Action.run_pure] at ran
    cases ran
    exact found
  fails s w e w' failed := by
    rcases bind_error failed with ⟨undeclared, -⟩ | ⟨b, hb, w₁, fails⟩
    · exact .inl undeclared
    · refine .inr ⟨b, hb, fun same => ?_, w₁, fails⟩
      -- the argument takes its value, so it is not the one that fails
      obtain rfl : b = a := List.inj_on_of_nodup_map nodup hb ha same
      have ran := fails.run
      rw [takes, Action.run_pure] at ran
      cases ran

/-- No map holds itself. -/
theorem ne_map_of_lookup {key : String} {v : Value} {entries : List (String × Value)}
    (h : Dict.lookup key entries = some v) : v ≠ .map entries := by
  rintro rfl
  have smaller := List.sizeOf_lt_of_mem (Dict.mem_of_lookup h)
  simp at smaller
  omega

/-- **An argument under its own name.** Let the flag of an argument be its own name. If a directive
supplies the argument, it is bound to just the value that is supplied, unless it is called
`parameters`; then it is bound to the map of all parameters, which is another value. -/
theorem bind_named {files : FileTree} {path : Path} {identifier : String} {r : Rule}
    (loaded : Rule.load files path identifier = .ok r) (d : Directive) {a : Argument}
    (ha : a ∈ r.arguments) (named : Expr.IsName a.identifier)
    (unreserved : a.identifier ∉ Grammar.constants.map Prod.fst)
    (expression : a.identifier ≠ "return") (flag : a.flag = some (naming a.identifier)) {v : Value}
    (supplied : Dict.lookup a.identifier d.parameters = some v) :
    (BoundTo r d a v ↔ a.identifier ≠ "parameters") ∧
      (a.identifier = "parameters" → BoundTo r d a (.map d.parameters)) := by
  have listed : Supplied d a := List.mem_map.mpr ⟨_, Dict.mem_of_lookup supplied, rfl⟩
  have reads {v : Value} (found : Dict.lookup a.identifier (scope d) = some v) :
      argumentValue d a = pure v := by
    rw [argumentValue_of_boundBy (fun _ => listed) (.flag listed flag), valueFrom,
      render_naming named unreserved expression found]
    rfl
  have bindsTo {v : Value} (found : Dict.lookup a.identifier (scope d) = some v) :
      BoundTo r d a v :=
    boundTo_of_takes (Rule.nodup_of_load loaded) ha (reads found)
  have noReference := Rule.not_reference_of_load loaded a ha
  have all (same : a.identifier = "parameters") :
      Dict.lookup a.identifier (scope d) = some (.map d.parameters) := by
    rw [lookup_scope, if_neg noReference, if_pos same]
  refine ⟨⟨fun bound same => ?_, fun other => bindsTo ?_⟩, fun same => bindsTo (all same)⟩
  · -- otherwise the value would be the mapping that it stands in
    have results := congrArg (fun action => (action.run (.ofDocument "doc.tex" true) {}).1)
      (bound.takes.symm.trans (reads (all same)))
    exact ne_map_of_lookup supplied (by simpa using results)
  · rw [lookup_scope, if_neg noReference, if_neg other, supplied]

/-- A world with a rule of which each argument has its name as its flag. -/
def passingWorld : World where
  files := .ofTexts
    [("pass.yaml", "identifier: pass\narguments:\n- identifier: depth\n" ++
      "  flag: '@\x7b depth \x7d'\n- identifier: parameters\n" ++
      "  flag: '@\x7b parameters \x7d'\ncommands:\n- command: 'true'\n")]

def passing : Rule where
  identifier := "pass"
  arguments := [{ identifier := "depth", flag := some (naming "depth") },
    { identifier := "parameters", flag := some (naming "parameters") }]
  commands := [{ command := "true" }]

theorem load_passing : Rule.load passingWorld.files ⟨"/pass.yaml"⟩ "pass" = .ok passing := by
  decide +kernel

/-- An integer stays an integer. -/
theorem bind_named_depth :
    let d : Directive := { identifier := "pass", parameters := [("depth", .int 3)] }
    Rule.load passingWorld.files ⟨"/pass.yaml"⟩ "pass" = .ok passing ∧
      BoundTo passing d { identifier := "depth", flag := some (naming "depth") } (.int 3) := by
  intro d
  have named : Expr.IsName "depth" := by unfold Expr.IsName; decide +kernel
  have bound := (bind_named load_passing d
    (a := { identifier := "depth", flag := some (naming "depth") }) (v := .int 3) (by simp [passing])
    named (by decide) (by decide) rfl (by decide)).1
  exact ⟨load_passing, bound.mpr (by decide)⟩

/-- An argument called `parameters` is not bound to what is supplied for it. -/
theorem passingWorld_parameters :
    let d : Directive := { identifier := "pass", parameters := [("parameters", .str "v")] }
    Rule.load passingWorld.files ⟨"/pass.yaml"⟩ "pass" = .ok passing ∧
      ((bind passing d).run (.ofDocument "doc.tex" true) passingWorld).1.toOption =
        some [("depth", .str ""), ("parameters", .map [("parameters", .str "v")]),
          ("reference", .null)] :=
  ⟨load_passing, by decide +kernel⟩

end Binding

end DirectiveRunner
