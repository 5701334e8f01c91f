import DirectiveRunner.Proofs.Rounds
/-!
# Where a halt ends a directive

The halt of a file is only looked at in three places: after the guard, after each command, and after
the condition of a loop. Between them a halt can be recorded by any expression, of a flag, a default,
a guard, a command, an exit check or a loop condition. `World.StopsAtHalt` says that nothing that
matters comes after it all the same: once the file is halted, no command is begun, no round starts
and no loop goes on asking. It is a preorder, so it is checked step by step; `execute_cutOff` is the
result.

What runs between a halt and the next look at it is the rest of the expression, of the arguments, of
the guard, or of the entries of one command.
-/

namespace DirectiveRunner

namespace Event

/-- Whether an event begins a command or a round of them. -/
def begins : Event → Prop
  | .rendering _ _ | .round _ => True
  | _ => False

/-- Whether an event takes a directive on: it begins a command or a round, or the condition of the
loop is about to be evaluated. -/
def takesOn (c : Conditional) : Event → Prop
  | .checking _ => c.loop? ≠ none
  | e => e.begins

theorem not_takesOn_of_byExpression {file : Path} {e : Event} (h : e.byExpression file)
    (c : Conditional) : ¬e.takesOn c := by
  cases e <;> first | exact h.elim | exact id

theorem not_begins_of_byExpression {file : Path} {e : Event} (h : e.byExpression file) :
    ¬e.begins := by
  cases e <;> first | exact h.elim | exact id

end Event

/-- `w'` comes of `w` by events none of which takes the directive on once the file is halted. -/
def World.StopsAtHalt (file : Path) (c : Conditional) (w w' : World) : Prop :=
  ∃ events, w.Leads events w' ∧
    ∀ before e after, events = before ++ e :: after → e.takesOn c →
      haltCodeAfter file (w.session.haltCode? file) before = none

instance (file : Path) (c : Conditional) : IsPreorder World (World.StopsAtHalt file c) where
  refl w := ⟨[], .refl w, fun before e after split => by simp at split⟩
  trans w w₁ w₂ := by
    rintro ⟨es, lead, stops⟩ ⟨es', lead', stops'⟩
    refine ⟨es ++ es', lead.trans lead', fun before e after split takes => ?_⟩
    rcases append_split split with ⟨rest, inFirst, -⟩ | ⟨rest, rfl, inSecond⟩
    · exact stops before e rest inFirst takes
    · -- what was halted by the first events is halted where the others start
      rw [haltCodeAfter_append, ← lead.haltCode?]
      exact stops' rest e after inSecond takes

namespace World.StopsAtHalt

variable {file : Path} {c : Conditional} {w w' : World}

theorem of_does (h : w.Does (¬Event.takesOn c ·) w') : w.StopsAtHalt file c w' := by
  obtain ⟨es, lead, idle⟩ := h
  refine ⟨es, lead, fun before e after split takes => ?_⟩
  exact absurd takes (idle e (split ▸ List.mem_append_right _ List.mem_cons_self))

/-- What takes the directive on may be done while the file is not halted. -/
theorem noted {e : Event} (running : w.session.haltCode? file = none)
    (h : ∀ f code, e ≠ .halted f code) : w.StopsAtHalt file c (w.noted e) := by
  refine ⟨[e], w.leads_noted e h, fun before e' after split _ => ?_⟩
  obtain ⟨rfl, -, -⟩ := singleton_split split
  exact running

end World.StopsAtHalt

variable {s : Setting} {c : Conditional}

/-! ## Commands and rounds -/

theorem Helper.call_idle (name : String) (args : List Value) :
    Action.Keeps (World.Does (¬Event.takesOn c ·)) s (call name args) :=
  (call_keeps name args).mono fun _ _ does =>
    does.mono fun _ h => Event.not_takesOn_of_byExpression h c

/-- A command that is run while the file is not halted only takes the directive on where it
begins. -/
theorem Command.run_stopsAtHalt (j : Job) (scope : Bindings) {w : World}
    (running : w.session.haltCode? s.file.path = none) :
    w.StopsAtHalt s.file.path c ((run j scope).run s w).2 := by
  have idle : KeptByEntries (World.Does (¬Event.takesOn c ·)) s :=
    keptByEntries_does (fun _ h => Event.not_takesOn_of_byExpression h c) (fun _ => id)
      fun _ _ => id
  have begun : w.StopsAtHalt s.file.path c (w.noted (.rendering s.file.path j.command.command)) :=
    .noted running (by simp)
  refine trans_of _ begun (.of_does ?_)
  rw [run, Action.run_setting_bind, Action.run_record_bind]
  refine Action.Keeps.bind (.mapError (Template.render_keeps idle.calls _ scope)) (fun v => ?_) _
  refine .bind (.record fun w => .noted id (by simp)) fun _ => ?_
  apply runEntries_keeps idle
  · intro _ w line directory
    exact .noted id (by simp)
  · intro w w' v b _
    exact .noted id (by simp)

namespace Execution

theorem keptByRounds_stopsAtHalt :
    KeptByRounds (· = none) (World.StopsAtHalt s.file.path c) s where
  running := rfl
  calls name args := (Helper.call_idle name args).mono fun _ _ => .of_does
  stopped w code := .of_does (.noted id nofun)
  finished w command success := .of_does (.noted id nofun)
  halted w := .of_does ⟨_, w.leads_halt s.file.path _, by simp [Event.takesOn, Event.begins]⟩
  begun w number running := .noted running nofun
  asked w expression running := .noted running nofun
  ran j scope w running := Command.run_stopsAtHalt j scope running

/-! ## Directives -/

/-- The guard is only asked where there is no loop, so it takes nothing on. -/
theorem allows_stopsAtHalt (scope : Bindings) (c : Conditional) :
    Action.Keeps (World.StopsAtHalt s.file.path c) s (Condition.allows scope c) := by
  have unasked (h : c.loop? = none) :
      Action.Keeps (World.StopsAtHalt s.file.path c) s (Condition.allows scope c) := by
    refine Condition.allows_keeps keptByRounds_stopsAtHalt.calls (fun w e => .of_does ?_) scope c
    exact .noted (fun takes => takes h) nofun
  cases c with
  | onlyIf e | «unless» e => exact unasked rfl
  | none | «while» e | «until» e => exact .pure true

theorem executeRule_stopsAtHalt (r : Rule) (d : Directive) :
    Action.Keeps (World.StopsAtHalt s.file.path d.conditional) s (executeRule r d) := by
  apply executeRule_keeps_of keptByRounds_stopsAtHalt
  · intro w name
    exact .of_does (.noted id nofun)
  · intro scope
    exact allows_stopsAtHalt scope d.conditional

theorem execute_stopsAtHalt (d : Directive) :
    Action.Keeps (World.StopsAtHalt s.file.path d.conditional) s (execute d) := by
  apply execute_keeps_of
  · intro w name
    exact .of_does (.noted id nofun)
  · intro r
    exact executeRule_stopsAtHalt r d

/-- Neither binding the arguments nor asking the guard begins a command. -/
theorem bind_begins_nothing (r : Rule) (d : Directive) :
    Action.Keeps (World.Does (¬Event.begins ·)) s (Binding.bind r d) := by
  refine Binding.bind_keeps (fun name args => ?_) (fun w name => .noted id nofun) r d
  exact (Helper.call_keeps name args).mono fun _ _ does =>
    does.mono fun _ => Event.not_begins_of_byExpression

theorem allows_begins_nothing (scope : Bindings) (c : Conditional) :
    Action.Keeps (World.Does (¬Event.begins ·)) s (Condition.allows scope c) := by
  refine Condition.allows_keeps (fun name args => ?_) (fun w e => .noted id nofun) scope c
  exact (Helper.call_keeps name args).mono fun _ _ does =>
    does.mono fun _ => Event.not_begins_of_byExpression

section

variable {r : Rule} {d : Directive} {scope : Bindings} {allowed : Bool} {w w₁ w₂ : World}
  {code : Int64}

/-- If the file is halted once the guard has answered, the directive ends there with the status of
the halt. -/
theorem executeRule_halted (bound : (Binding.bind r d).run s w = (.ok scope, w₁))
    (answered : (Condition.allows scope d.conditional).run s w₁ = (.ok allowed, w₂))
    (halted : w₂.session.haltCode? s.file.path = some code) :
    (executeRule r d).run s w = (.ok (.ofHaltCode code), w₂.noted (.shown (.halted code))) := by
  rw [executeRule, Action.run_bind, bound]
  simp only
  rw [Action.run_bind, answered]
  simp only
  rw [Action.run_bind, run_stopped?, halted]
  rfl

theorem execute_of_starts {ruleFile : Path} (starts : Starts s w d ruleFile r) :
    (execute d).run s w =
      (((executeRule r d).run s (w.noted (.executing s.file.path d.identifier))).1.mapError
          (.within d.identifier ruleFile),
        ((executeRule r d).run s (w.noted (.executing s.file.path d.identifier))).2) := by
  rcases ran : (execute d).run s w with ⟨x, w'⟩
  rcases execute_cases ran with ⟨never, -, -⟩ | ⟨ruleFile', r', result, starts', executed, rfl⟩
  · exact absurd starts (never ruleFile r)
  · obtain ⟨rfl, rfl⟩ := starts.unique starts'
    rw [executed]

/-- **Where a halt ends a directive.** In the execution of a directive, whatever the rule and the
state, no command is begun, no round starts and no condition of a loop is asked once the file is
halted. If the binding of the arguments or the guard halts the file, and both yield, the directive
has the status of the halt, whatever the guard has answered, and no command or round was begun. -/
theorem execute_cutOff (s : Setting) (d : Directive) :
    Action.Keeps (World.StopsAtHalt s.file.path d.conditional) s (execute d) ∧
      (∀ r, Action.Keeps (World.StopsAtHalt s.file.path d.conditional) s (executeRule r d)) ∧
      ∀ (w : World) (ruleFile : Path) (r : Rule) (scope : Bindings) (w₁ : World) (allowed : Bool)
        (w₂ : World) (code : Int64), Starts s w d ruleFile r →
        (Binding.bind r d).run s (w.noted (.executing s.file.path d.identifier)) =
          (.ok scope, w₁) →
        (Condition.allows scope d.conditional).run s w₁ = (.ok allowed, w₂) →
        w₂.session.haltCode? s.file.path = some code →
        ((execute d).run s w).1 = .ok (.ofHaltCode code) ∧
          ∃ events, w.Leads events ((execute d).run s w).2 ∧ ∀ e ∈ events, ¬e.begins := by
  refine ⟨execute_stopsAtHalt d, fun r => executeRule_stopsAtHalt r d, ?_⟩
  intro w ruleFile r scope w₁ allowed w₂ code starts bound answered halted
  have begun : w.Does (¬Event.begins ·) (w.noted (.executing s.file.path d.identifier)) :=
    .noted id nofun
  have opened := trans_of _ begun ((bind_begins_nothing r d).of_run bound)
  have asked := trans_of _ opened ((allows_begins_nothing scope d.conditional).of_run answered)
  have shown : w₂.Does (¬Event.begins ·) (w₂.noted (.shown (.halted code))) := .noted id nofun
  rw [execute_of_starts starts, executeRule_halted bound answered halted]
  exact ⟨rfl, trans_of _ asked shown⟩

/-- A world with a rule whose argument halts the file if it is not supplied. -/
def haltedByDefault : World where
  files := .ofTexts
    [("stop.yaml", "identifier: stop\narguments:\n- identifier: code\n  default: '@\x7b halt(7) \x7d'\n" ++
      "commands:\n- command: '@\x7b true \x7d'\n")]

def stopRule : Rule where
  identifier := "stop"
  arguments := [{ identifier := "code", default := some "@\x7b halt(7) \x7d" }]
  commands := [{ command := "@\x7b true \x7d" }]

/-- A directive whose guard does not hold has the status of a halt in an argument all the same. -/
theorem execute_cutOff_haltedByDefault :
    ∃ events, haltedByDefault.Leads events
        ((execute { identifier := "stop", conditional := .onlyIf "false" }).run
          (.ofDocument "doc.tex" true) haltedByDefault).2 ∧
      (∀ e ∈ events, ¬e.begins) ∧
      ((execute { identifier := "stop", conditional := .onlyIf "false" }).run
        (.ofDocument "doc.tex" true) haltedByDefault).1 = .ok (.ofHaltCode 7) := by
  let s := Setting.ofDocument "doc.tex" true
  let d : Directive := { identifier := "stop", conditional := .onlyIf "false" }
  have found : Rule.resolve haltedByDefault.files "stop" s.options.rulePaths = .ok ⟨"/stop.yaml"⟩ := by
    decide +kernel
  have loaded : Rule.load haltedByDefault.files ⟨"/stop.yaml"⟩ "stop" = .ok stopRule := by
    decide +kernel
  have bound := Action.run_eq_ok (a := Binding.bind stopRule d) (s := s)
    (w := haltedByDefault.noted (.executing s.file.path d.identifier))
    (x := [("code", .bool true), ("reference", .null)]) (by decide +kernel)
  have answered := Action.run_eq_ok
    (a := Condition.allows [("code", .bool true), ("reference", .null)] d.conditional) (s := s)
    (w := ((Binding.bind stopRule d).run s
      (haltedByDefault.noted (.executing s.file.path d.identifier))).2)
    (x := false) (by decide +kernel)
  obtain ⟨status, events, lead, idle⟩ := (execute_cutOff s d).2.2 haltedByDefault ⟨"/stop.yaml"⟩
    stopRule _ _ _ _ 7 ⟨by decide +kernel, found, loaded⟩ bound answered (by decide +kernel)
  exact ⟨events, lead, idle, status⟩

end

end Execution

end DirectiveRunner
