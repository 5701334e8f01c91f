import DirectiveRunner.Proofs.Execution
import DirectiveRunner.Proofs.Reference
/-!
# What arguments are bound to

A directive with a parameter that its rule does not declare is turned down before anything is rendered.
Otherwise the arguments are bound in the order in which they are declared. What happens to one of them
is said by two relations, one for the value it takes (`Takes`) and one for the error it ends with
(`Fails`); each template is rendered in the world that the argument before has left (`InTurn`).
`bind_outcome` puts this together for the rules that can be loaded, of which it matters that no
argument is declared twice and none is the reference.
-/

namespace DirectiveRunner

namespace Rule

/-- A loaded rule declares each argument once. -/
theorem nodup_of_load {files : FileTree} {path : Path} {identifier : String} {r : Rule}
    (h : load files path identifier = .ok r) : (r.arguments.map (·.identifier)).Nodup :=
  (argumentProblem?_eq_none_iff.mp (problem?_eq_none_iff.mp (problem?_of_load h)).2.2).2.2

end Rule

namespace Binding

variable {s : Setting} {d : Directive} {w w₁ w' : World}

/-! ## Parameters that are not declared -/

/-- Whether a key is one of a directive that its rule does not declare. -/
def Undeclared (r : Rule) (d : Directive) (key : String) : Prop :=
  key ∈ Dict.keys d.parameters ∧ key ≠ referenceKey ∧ ∀ a ∈ r.arguments, a.identifier ≠ key

theorem mem_unknownKeys {r : Rule} {key : String} : key ∈ unknownKeys r d ↔ Undeclared r d key := by
  simp [unknownKeys, Undeclared]

theorem unknownKeys_increasing (h : Dict.Ordered d.parameters) (r : Rule) :
    (unknownKeys r d).Pairwise (· < ·) := by
  apply List.Pairwise.filter
  apply List.pairwise_map.mpr
  apply h.imp
  rintro e e' ⟨differ, notGreater⟩
  exact Std.lt_of_le_of_ne (String.not_lt.mp notGreater) differ

/-! ## One argument -/

def Supplied (d : Directive) (a : Argument) : Prop := a.identifier ∈ Dict.keys d.parameters

/-- The template that decides the value of an argument, if there is one: its flag if it is supplied and
has one, and its default otherwise. -/
inductive BoundBy (d : Directive) (a : Argument) : Option (ArgumentPart × String) → Prop
  | flag {t : String} : Supplied d a → a.flag = some t → BoundBy d a (some (.flag, t))
  | default {t : String} : ¬(Supplied d a ∧ a.flag ≠ none) → a.default = some t →
    BoundBy d a (some (.default, t))
  | nothing : ¬(Supplied d a ∧ a.flag ≠ none) → a.default = none → BoundBy d a none

/-- In the world `w` an argument takes a value, and the world `w'` is left. -/
inductive Takes (s : Setting) (d : Directive) (w : World) (a : Argument) : Value → World → Prop
  | rendered {part : ArgumentPart} {t : String} {v : Value} {w' : World} :
    (a.required = true → Supplied d a) → BoundBy d a (some (part, t)) →
    (Template.render t (scope d)).run s w = (.ok v, w') → Takes s d w a v w'
  | empty : (a.required = true → Supplied d a) → BoundBy d a none → Takes s d w a (.str "") w

/-- In the world `w` an argument ends the binding with an error, and the world `w'` is left. -/
inductive Fails (s : Setting) (d : Directive) (w : World) (a : Argument) : RunError → World → Prop
  | missing : a.required = true → ¬Supplied d a →
    Fails s d w a (.missingRequiredArgument a.identifier) w
  | rendering {part : ArgumentPart} {t : String} {e : EvalError} {w' : World} :
    (a.required = true → Supplied d a) → BoundBy d a (some (part, t)) →
    (Template.render t (scope d)).run s w = (.error e, w') →
    Fails s d w a (.argumentEvaluation a.identifier part e) w'

theorem contains_iff {a : Argument} :
    Dict.contains a.identifier d.parameters = true ↔ Supplied d a := by
  simp [Dict.contains, Supplied, Dict.keys]

theorem exists_boundBy (d : Directive) (a : Argument) : ∃ source, BoundBy d a source := by
  by_cases flagged : Supplied d a ∧ a.flag ≠ none
  · obtain ⟨supplied, hf⟩ := flagged
    obtain ⟨t, hf⟩ := Option.ne_none_iff_exists'.mp hf
    exact ⟨_, .flag supplied hf⟩
  · cases hd : a.default with
    | none => exact ⟨_, .nothing flagged hd⟩
    | some t => exact ⟨_, .default flagged hd⟩

theorem argumentValue_of_missing {a : Argument} (required : a.required = true)
    (h : ¬Supplied d a) : argumentValue d a = .fail (.missingRequiredArgument a.identifier) := by
  have absent : Dict.contains a.identifier d.parameters = false := by
    rwa [← contains_iff, Bool.not_eq_true] at h
  simp [argumentValue, required, absent]

/-- The value that an argument gets from a template, or without one. -/
def valueFrom (d : Directive) (a : Argument) :
    Option (ArgumentPart × String) → Action RunError Value
  | some (part, t) => (Template.render t (scope d)).mapError (.argumentEvaluation a.identifier part)
  | none => pure (.str "")

theorem argumentValue_of_boundBy {a : Argument} (h : a.required = true → Supplied d a)
    {source : Option (ArgumentPart × String)} (hb : BoundBy d a source) :
    argumentValue d a = valueFrom d a source := by
  have present : (a.required && !Dict.contains a.identifier d.parameters) = false := by
    cases hr : a.required with
    | false => rfl
    | true => simp [contains_iff.mpr (h hr)]
  unfold argumentValue
  simp only [present, Bool.false_eq_true, if_false]
  cases hb with
  | flag supplied hf => simp [contains_iff.mpr supplied, hf, valueFrom]
  | default unflagged hd =>
    rw [← contains_iff] at unflagged
    split <;> simp_all [valueFrom]
  | nothing unflagged hd =>
    rw [← contains_iff] at unflagged
    split <;> simp_all [valueFrom]

/-- An argument fails or takes a value. -/
theorem argumentValue_cases (s : Setting) (d : Directive) (w : World) (a : Argument) :
    (∃ e w', Fails s d w a e w' ∧ (argumentValue d a).run s w = (.error e, w')) ∨
      ∃ v w', Takes s d w a v w' ∧ (argumentValue d a).run s w = (.ok v, w') := by
  by_cases missing : a.required = true ∧ ¬Supplied d a
  · obtain ⟨required, absent⟩ := missing
    rw [argumentValue_of_missing required absent]
    exact .inl ⟨_, _, .missing required absent, rfl⟩
  · have present : a.required = true → Supplied d a := by simpa using missing
    obtain ⟨source, hb⟩ := exists_boundBy d a
    rw [argumentValue_of_boundBy present hb]
    rcases source with _ | ⟨part, t⟩
    · exact .inr ⟨_, _, .empty present hb, rfl⟩
    · rcases ran : (valueFrom d a (some (part, t))).run s w with ⟨r, w'⟩
      rcases Action.run_mapError_cases ran with ⟨e, failed, rfl⟩ | ⟨v, rendered, rfl⟩
      · exact .inl ⟨_, _, .rendering present hb failed, rfl⟩
      · exact .inr ⟨_, _, .rendered present hb rendered, rfl⟩

/-! ## All arguments -/

/-- Starting in the world `w`, some arguments take values one after the other, each in the world that
the one before has left, and the world `w'` is left. -/
inductive InTurn (s : Setting) (d : Directive) :
    World → List Argument → List Value → World → Prop
  | nil {w : World} : InTurn s d w [] [] w
  | cons {w w₁ w' : World} {a : Argument} {as : List Argument} {v : Value} {vs : List Value} :
    Takes s d w a v w₁ → InTurn s d w₁ as vs w' → InTurn s d w (a :: as) (v :: vs) w'

/-- `bound'` comes of `bound` by setting some arguments to values. -/
structure Sets (as : List Argument) (vs : List Value) (bound bound' : Bindings) : Prop where
  ordered : Dict.Ordered bound → Dict.Ordered bound'
  keys (key : String) :
    key ∈ Dict.keys bound' ↔ key ∈ Dict.keys bound ∨ ∃ a ∈ as, a.identifier = key
  others (key : String) : (∀ a ∈ as, a.identifier ≠ key) →
    Dict.lookup key bound' = Dict.lookup key bound
  values : (as.map (·.identifier)).Nodup →
    List.Forall₂ (fun a v => Dict.lookup a.identifier bound' = some v) as vs

namespace Sets

theorem nil (bound : Bindings) : Sets [] [] bound bound :=
  ⟨id, by simp, fun _ _ => rfl, fun _ => .nil⟩

theorem cons {a : Argument} {as : List Argument} {v : Value} {vs : List Value}
    {bound bound' : Bindings} (h : Sets as vs (Dict.insert a.identifier v bound) bound') :
    Sets (a :: as) (v :: vs) bound bound' where
  ordered before := h.ordered (before.insert _ _)
  keys key := by
    rw [h.keys, Dict.mem_keys_insert]
    simp only [List.mem_cons, exists_eq_or_imp]
    grind
  others key none := by
    obtain ⟨first, later⟩ := List.forall_mem_cons.mp none
    rw [h.others key later, Dict.lookup_insert_of_ne first.symm]
  values nodup := by
    obtain ⟨new, nodup⟩ := List.nodup_cons.mp nodup
    refine .cons ?_ (h.values nodup)
    -- no later argument has the identifier of the first one, which thus keeps its value
    have kept : ∀ b ∈ as, b.identifier ≠ a.identifier := by
      intro b hb same
      exact new (List.mem_map.mpr ⟨b, hb, same⟩)
    rw [h.others _ kept, Dict.lookup_insert_self]

end Sets

/-- Arguments are bound in turn up to the first that fails. -/
theorem bindArguments_cases (s : Setting) (d : Directive) :
    ∀ (as : List Argument) (bound : Bindings) (w : World),
      (∃ before a after vs w₁ e w', as = before ++ a :: after ∧ InTurn s d w before vs w₁ ∧
        Fails s d w₁ a e w' ∧ (bindArguments d bound as).run s w = (.error e, w')) ∨
      ∃ vs bound' w', InTurn s d w as vs w' ∧ Sets as vs bound bound' ∧
        (bindArguments d bound as).run s w = (.ok bound', w')
  | [], bound, w => .inr ⟨[], bound, w, .nil, .nil bound, rfl⟩
  | a :: as, bound, w => by
    rw [bindArguments, Action.run_bind]
    rcases argumentValue_cases s d w a with ⟨e, w', fails, ran⟩ | ⟨v, w₁, takes, ran⟩
    · rw [ran]
      exact .inl ⟨[], a, as, [], w, e, w', rfl, .nil, fails, rfl⟩
    · rw [ran]
      rcases bindArguments_cases s d as (Dict.insert a.identifier v bound) w₁ with
        ⟨before, b, after, vs, w₂, e, w', rfl, inTurn, fails, ran⟩ | ⟨vs, bound', w', inTurn, sets, ran⟩
      · exact .inl ⟨a :: before, b, after, v :: vs, w₂, e, w', rfl, .cons takes inTurn, fails, ran⟩
      · exact .inr ⟨v :: vs, bound', w', .cons takes inTurn, sets.cons, ran⟩

/-! ## The outcome -/

/-- What flags and defaults see. -/
theorem lookup_scope (d : Directive) (key : String) :
    Dict.lookup key (scope d) =
      if key = referenceKey then some (d.reference?.getD .null)
      else if key = "parameters" then some (.map d.parameters)
      else Dict.lookup key d.parameters := by
  unfold scope
  split
  · next same =>
    rw [same, Dict.lookup_insert_self]
    rfl
  · next other =>
    rw [Dict.lookup_insert_of_ne other]
    split
    · next same => rw [same, Dict.lookup_insert_self]
    · next other => rw [Dict.lookup_insert_of_ne other]

/-- The reference and the arguments of a rule are bound, and nothing else. -/
structure Binds (d : Directive) (as : List Argument) (vs : List Value) (bound : Bindings) :
    Prop where
  ordered : Dict.Ordered bound
  keys (key : String) :
    key ∈ Dict.keys bound ↔ key = referenceKey ∨ ∃ a ∈ as, a.identifier = key
  reference : Dict.lookup referenceKey bound = some (d.reference?.getD .null)
  values : List.Forall₂ (fun a v => Dict.lookup a.identifier bound = some v) as vs

theorem Sets.binds {as : List Argument} {vs : List Value} {bound : Bindings}
    (h : Sets as vs [(referenceKey, referenceValue d)] bound)
    (noReference : ∀ a ∈ as, a.identifier ≠ referenceKey)
    (nodup : (as.map (·.identifier)).Nodup) : Binds d as vs bound where
  ordered := h.ordered (List.pairwise_singleton _ _)
  keys key := by
    rw [h.keys]
    simp [Dict.keys]
  reference := by
    rw [h.others _ noReference, Dict.lookup_cons, if_pos rfl]
    rfl
  values := h.values nodup

/-- **What a directive binds.** Flags and defaults see the parameters, all of them as `parameters`, and
the reference. If some parameters are not declared by the rule, these are the error, in increasing
order, and nothing was evaluated. Otherwise the arguments are bound in turn: the first that fails gives
the error, and the later ones are left alone; if none fails, the reference and the arguments are bound
and nothing else. -/
theorem bind_outcome {files : FileTree} {path : Path} {identifier : String} {r : Rule}
    (loaded : Rule.load files path identifier = .ok r) (d : Directive) (s : Setting) (w : World) :
    (∀ key, Dict.lookup key (scope d) =
      if key = referenceKey then some (d.reference?.getD .null)
      else if key = "parameters" then some (.map d.parameters)
      else Dict.lookup key d.parameters) ∧
    ((∃ key, Undeclared r d key) →
      ∃ keys w', (bind r d).run s w = (.error (.unknownArgument keys), w') ∧
        (∀ key, key ∈ keys ↔ Undeclared r d key) ∧
        (Dict.Ordered d.parameters → keys.Pairwise (· < ·)) ∧
        w'.session = w.session ∧ w'.files = w.files ∧ w'.transcript = w.transcript ∧
        w'.journal = .binding r.identifier :: w.journal) ∧
    ((¬∃ key, Undeclared r d key) →
      (∃ before a after vs w₁ e w', r.arguments = before ++ a :: after ∧
        InTurn s d (w.noted (.binding r.identifier)) before vs w₁ ∧ Fails s d w₁ a e w' ∧
        (bind r d).run s w = (.error e, w')) ∨
      ∃ vs bound w', InTurn s d (w.noted (.binding r.identifier)) r.arguments vs w' ∧
        Binds d r.arguments vs bound ∧ (bind r d).run s w = (.ok bound, w')) := by
  refine ⟨lookup_scope d, ?_, ?_⟩
  · rintro ⟨key, undeclared⟩
    refine ⟨unknownKeys r d, w.noted (.binding r.identifier), ?_, fun _ => mem_unknownKeys,
      fun ordered => unknownKeys_increasing ordered r, rfl, rfl, ?_, rfl⟩
    · rw [bind, Action.run_record_bind]
      split
      · next none =>
        have listed := mem_unknownKeys.mpr undeclared
        rw [none] at listed
        cases listed
      · rfl
    · simp [World.transcript, World.noted, Event.text]
  · intro declared
    have none : unknownKeys r d = [] := by
      apply List.eq_nil_iff_forall_not_mem.mpr
      intro key listed
      exact declared ⟨key, mem_unknownKeys.mp listed⟩
    rw [bind, Action.run_record_bind]
    simp only [none]
    rcases bindArguments_cases s d r.arguments [(referenceKey, referenceValue d)]
        (w.noted (.binding r.identifier)) with failed | ⟨vs, bound, w', inTurn, sets, ran⟩
    · exact .inl failed
    · have binds := sets.binds (Rule.not_reference_of_load loaded) (Rule.nodup_of_load loaded)
      exact .inr ⟨vs, bound, w', inTurn, binds, ran⟩

/-- A rule with an argument that a directive has to supply and one that has a default. -/
def greeting : Rule where
  identifier := "greet"
  arguments := [{ identifier := "name", required := true, flag := some "Dear @\x7b name \x7d" },
    { identifier := "close", default := some "Yours" }]
  commands := [{ command := "true" }]

def greetingWorld : World where
  files := .ofTexts
    [("greet.yaml",
      "identifier: greet\narguments:\n" ++
        "- identifier: name\n  required: true\n  flag: 'Dear @\x7b name \x7d'\n" ++
        "- identifier: close\n  default: Yours\ncommands:\n- command: 'true'\n")]

/-- A directive whose parameters are not declared, and one whose arguments are all bound. -/
theorem bind_outcome_greeting :
    let s := Setting.ofDocument "doc.tex" true
    let strange : Directive :=
      { identifier := "greet", parameters := [("alpha", .str "a"), ("zeta", .str "z")] }
    let known : Directive := { identifier := "greet", parameters := [("name", .str "Ann")] }
    Rule.load greetingWorld.files ⟨"/greet.yaml"⟩ "greet" = .ok greeting ∧
      (∃ keys w', (bind greeting strange).run s greetingWorld = (.error (.unknownArgument keys), w') ∧
        "alpha" ∈ keys ∧ "zeta" ∈ keys ∧ keys.Pairwise (· < ·) ∧
        w'.session = greetingWorld.session) ∧
      ∃ vs bound w', (bind greeting known).run s greetingWorld = (.ok bound, w') ∧
        InTurn s known (greetingWorld.noted (.binding "greet")) greeting.arguments vs w' ∧
        Binds known greeting.arguments vs bound := by
  intro s strange known
  have loaded : Rule.load greetingWorld.files ⟨"/greet.yaml"⟩ "greet" = .ok greeting := by
    decide +kernel
  refine ⟨loaded, ?_, ?_⟩
  · obtain ⟨-, undeclared, -⟩ := bind_outcome loaded strange s greetingWorld
    have alpha : Undeclared greeting strange "alpha" := by unfold Undeclared; decide
    have zeta : Undeclared greeting strange "zeta" := by unfold Undeclared; decide
    obtain ⟨keys, w', ran, listed, increasing, session, -⟩ := undeclared ⟨_, alpha⟩
    have ordered : Dict.Ordered strange.parameters := by unfold Dict.Ordered; decide
    exact ⟨keys, w', ran, (listed _).mpr alpha, (listed _).mpr zeta, increasing ordered, session⟩
  · obtain ⟨-, -, declared⟩ := bind_outcome loaded known s greetingWorld
    have all : ¬∃ key, Undeclared greeting known key := by
      rintro ⟨key, mem, -, undeclared⟩
      obtain rfl : key = "name" := by simpa [known, Dict.keys] using mem
      exact undeclared _ List.mem_cons_self rfl
    have bound := Action.run_eq_ok (a := bind greeting known) (w := greetingWorld) (s := s)
      (x := [("close", .str "Yours"), ("name", .str "Dear Ann"), ("reference", .null)])
      (by decide +kernel)
    rcases declared all with ⟨_, _, _, _, _, _, _, _, _, _, failed⟩ | ⟨vs, _, _, inTurn, binds, ran⟩
    · rw [bound] at failed
      cases failed
    · exact ⟨vs, _, _, ran, inTurn, binds⟩

end Binding

end DirectiveRunner
