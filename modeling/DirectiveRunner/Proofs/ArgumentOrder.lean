import DirectiveRunner.Proofs.Effects
import DirectiveRunner.Proofs.Supplied
/-!
# The order in which arguments are declared

Flags and defaults see the world and the parameters of the directive, but not what other arguments are
bound to. If they call no helper that acts or asks the user, the world stays as it is, and then it
depends on no other argument whether an argument takes a value and which one that is. So the order in
which the arguments are declared only decides which of several errors comes first (`bind_perm`).
-/

namespace DirectiveRunner.Binding

variable {s : Setting} {d : Directive} {r : Rule} {w w' : World} {a : Argument}
  {as as' : List Argument} {bound bound' : Bindings}

/-! ## One argument -/

/-- The flag and the default of an argument call no helper that acts or asks the user. -/
def Quiet (a : Argument) : Prop :=
  ∀ t, a.flag = some t ∨ a.default = some t → ∀ name ∈ Template.calls t, name ∉ Helper.effects

theorem Quiet.leaves (quiet : Quiet a) {part : ArgumentPart} {t : String}
    (hb : BoundBy d a (some (part, t))) : ((Template.render t (scope d)).run s w).2 = w := by
  apply Template.render_leaves_world
  cases hb with
  | flag _ hf => exact quiet t (.inl hf)
  | default _ hd => exact quiet t (.inr hd)

theorem Takes.eq_world {v : Value} (h : Takes s d w a v w') (quiet : Quiet a) : w' = w := by
  cases h with
  | rendered _ hb ran => exact (congrArg Prod.snd ran).symm.trans (quiet.leaves hb)
  | empty => rfl

theorem Fails.eq_world {e : RunError} (h : Fails s d w a e w') (quiet : Quiet a) : w' = w := by
  cases h with
  | missing => rfl
  | rendering _ hb ran => exact (congrArg Prod.snd ran).symm.trans (quiet.leaves hb)

/-- In one world an argument takes one value. -/
theorem Takes.unique {v v' : Value} {w₁ w₂ : World} (h : Takes s d w a v w₁)
    (h' : Takes s d w a v' w₂) : v = v' := by
  have same := h.run.symm.trans h'.run
  cases same
  rfl

theorem Takes.not_fails {v : Value} {e : RunError} {w₁ w₂ : World} (h : Takes s d w a v w₁) :
    ¬Fails s d w a e w₂ := by
  intro fails
  have same := h.run.symm.trans fails.run
  cases same

/-! ## All arguments -/

/-- In the world `w`, which stays as it is, the first of some arguments that takes no value fails with
an error. -/
def FirstFails (s : Setting) (d : Directive) (w : World) (as : List Argument) (e : RunError) : Prop :=
  ∃ before a after, as = before ++ a :: after ∧ (∀ b ∈ before, ∃ v, Takes s d w b v w) ∧
    Fails s d w a e w

/-- The reference is bound, and each argument to the value that it takes in the world `w`, which stays
as it is, and nothing else. -/
structure BindsIn (s : Setting) (d : Directive) (w : World) (as : List Argument)
    (bound : Bindings) : Prop where
  ordered : Dict.Ordered bound
  keys (key : String) :
    key ∈ Dict.keys bound ↔ key = referenceKey ∨ ∃ a ∈ as, a.identifier = key
  reference : Dict.lookup referenceKey bound = some (d.reference?.getD .null)
  values : ∀ a ∈ as, ∃ v, Takes s d w a v w ∧ Dict.lookup a.identifier bound = some v

/-- Arguments whose templates are quiet take their values in one world. -/
theorem InTurn.takes {vs : List Value} (h : InTurn s d w as vs w') (quiet : ∀ a ∈ as, Quiet a) :
    w' = w ∧ List.Forall₂ (fun a v => Takes s d w a v w) as vs := by
  induction h with
  | nil => exact ⟨rfl, .nil⟩
  | cons takes _ ih =>
    obtain ⟨first, later⟩ := List.forall_mem_cons.mp quiet
    obtain rfl := takes.eq_world first
    obtain ⟨rfl, others⟩ := ih later
    exact ⟨rfl, .cons takes others⟩

theorem exists_of_forall₂ {R : Argument → Value → Prop} {vs : List Value}
    (h : List.Forall₂ R as vs) : ∀ a ∈ as, ∃ v, R a v := by
  induction h with
  | nil => simp
  | cons first _ ih => exact List.forall_mem_cons.mpr ⟨⟨_, first⟩, ih⟩

namespace BindsIn

theorem of_binds {vs : List Value} (binds : Binds d as vs bound)
    (takes : List.Forall₂ (fun a v => Takes s d w a v w) as vs) : BindsIn s d w as bound where
  ordered := binds.ordered
  keys := binds.keys
  reference := binds.reference
  values := exists_of_forall₂ (takes.mp (fun _ _ took found => ⟨took, found⟩) binds.values)

/-- What is bound does not depend on the order of the arguments. -/
theorem unique (h : BindsIn s d w as bound) (h' : BindsIn s d w as' bound')
    (same : ∀ a, a ∈ as' ↔ a ∈ as) : bound' = bound := by
  refine h'.ordered.ext h.ordered fun key => ?_
  by_cases reference : key = referenceKey
  · rw [reference, h'.reference, h.reference]
  by_cases declared : ∃ a ∈ as, a.identifier = key
  · obtain ⟨a, ha, rfl⟩ := declared
    obtain ⟨v, takes, found⟩ := h.values a ha
    obtain ⟨v', takes', found'⟩ := h'.values a ((same a).mpr ha)
    rw [found, found', takes.unique takes']
  · -- a key that is neither has no value
    have unbound {as : List Argument} {bound : Bindings} (h : BindsIn s d w as bound)
        (undeclared : ¬∃ a ∈ as, a.identifier = key) : Dict.lookup key bound = none := by
      refine Dict.lookup_eq_none fun e he differs => ?_
      rcases (h.keys key).mp (List.mem_map.mpr ⟨e, he, differs⟩) with rfl | listed
      · exact reference rfl
      · exact undeclared listed
    rw [unbound h declared, unbound h' (by simpa only [same] using declared)]

end BindsIn

/-- How `bind` ends if the templates of the arguments are quiet, and no argument is declared twice or is
the reference. -/
theorem bind_cases_of_quiet (quiet : ∀ a ∈ r.arguments, Quiet a)
    (noReference : ∀ a ∈ r.arguments, a.identifier ≠ referenceKey)
    (nodup : (r.arguments.map (·.identifier)).Nodup) (d : Directive) (s : Setting) (w : World) :
    let w' := w.noted (.binding r.identifier)
    (unknownKeys r d ≠ [] ∧
      (bind r d).run s w = (.error (.unknownArgument (unknownKeys r d)), w')) ∨
    (unknownKeys r d = [] ∧
      ((∃ e, FirstFails s d w' r.arguments e ∧ (bind r d).run s w = (.error e, w')) ∨
        ∃ bound, BindsIn s d w' r.arguments bound ∧ (bind r d).run s w = (.ok bound, w'))) := by
  intro w'
  by_cases none : unknownKeys r d = []
  · refine .inr ⟨none, ?_⟩
    rw [run_bind_of_declared none]
    rcases bindArguments_cases s d r.arguments [(referenceKey, referenceValue d)] w' with
      ⟨before, a, after, vs, w₁, e, w₂, split, inTurn, fails, ran⟩ |
        ⟨vs, bound, w₁, inTurn, sets, ran⟩
    · rw [split] at quiet
      obtain ⟨rfl, takes⟩ := inTurn.takes fun b hb => quiet b (List.mem_append_left _ hb)
      obtain rfl := fails.eq_world (quiet a (by simp))
      exact .inl ⟨e, ⟨before, a, after, split, exists_of_forall₂ takes, fails⟩, ran⟩
    · obtain ⟨rfl, takes⟩ := inTurn.takes quiet
      exact .inr ⟨bound, .of_binds (sets.binds noReference nodup) takes, ran⟩
  · exact .inl ⟨none, run_bind_of_undeclared none⟩

/-- **The order of the arguments does not matter.** If no flag and no default of a loaded rule calls a
helper that acts or asks the user, then the rule with its arguments in any other order binds the same
under every directive and in every world, or fails under both orders, and leaves the same world. If
there are parameters that the rule does not declare, the error is the same; otherwise each order fails
with the error of the argument that it has first among those that fail, and which arguments fail, and
how, does not depend on the order. -/
theorem bind_perm {files : FileTree} {path : Path} {identifier : String}
    (loaded : Rule.load files path identifier = .ok r) (quiet : ∀ a ∈ r.arguments, Quiet a)
    (perm : as.Perm r.arguments) (d : Directive) (s : Setting) (w : World) :
    let w' := w.noted (.binding r.identifier)
    (∃ bound, (bind r d).run s w = (.ok bound, w') ∧
      (bind { r with arguments := as } d).run s w = (.ok bound, w')) ∨
    ∃ e e', (bind r d).run s w = (.error e, w') ∧
      (bind { r with arguments := as } d).run s w = (.error e', w') ∧
      ((e' = e ∧ e = .unknownArgument (unknownKeys r d)) ∨
        (FirstFails s d w' r.arguments e ∧ FirstFails s d w' as e')) := by
  intro w'
  have same (a : Argument) : a ∈ as ↔ a ∈ r.arguments := perm.mem_iff
  have noReference := Rule.not_reference_of_load loaded
  have nodup := Rule.nodup_of_load loaded
  have keys : unknownKeys { r with arguments := as } d = unknownKeys r d := by
    simp only [unknownKeys, perm.any_eq]
  have original := bind_cases_of_quiet quiet noReference nodup d s w
  have permuted := bind_cases_of_quiet (r := { r with arguments := as })
    (fun a ha => quiet a ((same a).mp ha)) (fun a ha => noReference a ((same a).mp ha))
    ((perm.map _).nodup_iff.mpr nodup) d s w
  rw [keys] at permuted
  -- an argument that takes its value under one order does not fail under the other
  have clash {as as' : List Argument} {bound : Bindings} {e : RunError}
      (same : ∀ a, a ∈ as' → a ∈ as) (binds : BindsIn s d w' as bound) :
      ¬FirstFails s d w' as' e := by
    rintro ⟨before, a, after, rfl, -, fails⟩
    obtain ⟨v, takes, -⟩ := binds.values a (same a (by simp))
    exact takes.not_fails fails
  rcases original with ⟨some, ran⟩ | ⟨none, ⟨e, fails, ran⟩ | ⟨bound, binds, ran⟩⟩
  · rcases permuted with ⟨_, ran'⟩ | ⟨none, _⟩
    · exact .inr ⟨_, _, ran, ran', .inl ⟨rfl, rfl⟩⟩
    · exact absurd none some
  · rcases permuted with ⟨some, _⟩ | ⟨_, ⟨e', fails', ran'⟩ | ⟨_, binds, _⟩⟩
    · exact absurd none some
    · exact .inr ⟨e, e', ran, ran', .inr ⟨fails, fails'⟩⟩
    · exact absurd fails (clash (fun a => (same a).mpr) binds)
  · rcases permuted with ⟨some, _⟩ | ⟨_, ⟨_, fails, _⟩ | ⟨bound', binds', ran'⟩⟩
    · exact absurd none some
    · exact absurd fails (clash (fun a => (same a).mp) binds)
    · obtain rfl := binds.unique binds' same
      exact .inl ⟨_, ran, ran'⟩

/-- A rule with a default that calls a helper and looks at the parameter for another argument. -/
def typesetting : Rule where
  identifier := "tex"
  arguments := [{ identifier := "in", required := true, flag := some "@\x7b in \x7d" },
    { identifier := "job", default := some "@\x7b getBasename(in) \x7d" }]
  commands := [{ command := "tex" }]

/-- A world with the file of the rule. -/
def typesettingWorld : World where
  files := .ofTexts
    [("tex.yaml",
      "identifier: tex\narguments:\n" ++
        "- identifier: in\n  required: true\n  flag: '@\x7b in \x7d'\n" ++
        "- identifier: job\n  default: '@\x7b getBasename(in) \x7d'\ncommands:\n- command: tex\n")]

/-- With an input, both orders bind the same; without one, both fail, each with an error of its own. -/
theorem bind_perm_typesetting :
    let s := Setting.ofDocument "doc.tex" true
    let w := typesettingWorld.noted (.binding "tex")
    let other := { typesetting with arguments := typesetting.arguments.reverse }
    let known : Directive := { identifier := "tex", parameters := [("in", .str "a.tex")] }
    let inputless : Directive := { identifier := "tex" }
    Rule.load typesettingWorld.files ⟨"/tex.yaml"⟩ "tex" = .ok typesetting ∧
      (∀ a ∈ typesetting.arguments, Quiet a) ∧ typesetting.arguments.reverse ≠ typesetting.arguments ∧
      (bind other known).run s typesettingWorld =
        (.ok [("in", .str "a.tex"), ("job", .str "a"), ("reference", .null)], w) ∧
      FirstFails s inputless w typesetting.arguments (.missingRequiredArgument "in") ∧
      FirstFails s inputless w other.arguments
        (.argumentEvaluation "job" .default (.unknownIdentifier "in")) := by
  intro s w other known inputless
  have loaded : Rule.load typesettingWorld.files ⟨"/tex.yaml"⟩ "tex" = .ok typesetting := by
    decide +kernel
  have quiet : ∀ a ∈ typesetting.arguments, Quiet a := by
    simp only [typesetting, List.forall_mem_cons, List.not_mem_nil, false_imp_iff, implies_true,
      and_true]
    constructor
    · rintro t (⟨⟨⟩⟩ | ⟨⟨⟩⟩)
      decide +kernel
    · rintro t (⟨⟨⟩⟩ | ⟨⟨⟩⟩)
      decide +kernel
  have perm := typesetting.arguments.reverse_perm
  refine ⟨loaded, quiet, by decide, ?_, ?_⟩
  · have yields : ((bind typesetting known).run s typesettingWorld).1 =
        .ok [("in", .str "a.tex"), ("job", .str "a"), ("reference", .null)] := by
      decide +kernel
    rcases bind_perm loaded quiet perm known s typesettingWorld with
      ⟨bound, ran, ran'⟩ | ⟨_, _, ran, _⟩
    · rw [ran] at yields
      cases yields
      exact ran'
    · rw [ran] at yields
      cases yields
  · have failed : ((bind typesetting inputless).run s typesettingWorld).1 =
        .error (.missingRequiredArgument "in") := by decide +kernel
    have failed' : ((bind other inputless).run s typesettingWorld).1 =
        .error (.argumentEvaluation "job" .default (.unknownIdentifier "in")) := by decide +kernel
    rcases bind_perm loaded quiet perm inputless s typesettingWorld with
      ⟨_, ran, _⟩ | ⟨e, e', ran, ran', ⟨_, unknown⟩ | fails⟩
    · rw [ran] at failed
      cases failed
    · rw [ran, unknown] at failed
      cases failed
    · rw [ran] at failed
      rw [ran'] at failed'
      cases failed
      cases failed'
      exact fails

end DirectiveRunner.Binding
