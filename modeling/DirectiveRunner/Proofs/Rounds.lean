import DirectiveRunner.Proofs.Execution
import DirectiveRunner.Proofs.Raise
/-!
# How often a directive runs

The commands of a rule are run in rounds. A round is *completed* if its commands raise no error and
do not halt the file (`Completes`), and after a completed round the condition of the loop is asked,
if there is one, whether there is another round. `Repeated` are the rounds that were followed by
another one, `Last` the round that was not, with the reason why; `Course` puts them after the
binding of the arguments and the guard. Every directive that is executed has such a course, and the
journal shows its stages (`execute_course`).

The rounds are counted twice, by a number that the journal shows and by what is left of them. The
induction is on what is left and holds the sum of both fixed at the bound, so the number never
exceeds the bound, and the bound is met in the round that has its number.
-/

namespace DirectiveRunner

/-! ## Stages -/

namespace Event

/-- Whether an event says that the arguments are bound, a condition is asked or a round starts. -/
def isStage : Event → Bool
  | .binding _ | .checking _ | .round _ => true
  | _ => false

/-- The number of the round that starts. -/
def round? : Event → Option UInt32
  | .round number => some number
  | _ => none

theorem isStage_of_byExpression {file : Path} {e : Event} (h : e.byExpression file) :
    e.isStage = false := by
  cases e <;> first | rfl | exact h.elim

theorem isStage_of_byCommand {file : Path} {e : Event} (h : e.byCommand file) :
    e.isStage = false := by
  cases e <;> first | rfl | exact h.elim

end Event

/-- `w'` comes of `w` with these stages, and other events between them. -/
def World.Passes (stages : List Event) (w w' : World) : Prop :=
  ∃ events, w.Leads events w' ∧ events.filter Event.isStage = stages

namespace World.Passes

variable {w w₁ w₂ : World} {es es' : List Event}

theorem trans (h : w.Passes es w₁) (h' : w₁.Passes es' w₂) : w.Passes (es ++ es') w₂ :=
  Marks.trans h h'

theorem of_does (h : w.Does (·.isStage = false) w₁) : w.Passes [] w₁ := Marks.of_does h

theorem quiet (h : w.Passes es w₁) (h' : w₁.Does (·.isStage = false) w₂) : w.Passes es w₂ :=
  Marks.quiet h h'

theorem executing (file : Path) (identifier : String) :
    w.Passes [] (w.noted (.executing file identifier)) :=
  of_does (.noted rfl nofun)

theorem noted {e : Event} (stage : e.isStage = true) : w.Passes [e] (w.noted e) :=
  Marks.noted stage fun file c same => by simp [same, Event.isStage] at stage

end World.Passes

/-- What is made of the result of an action does not change the world. -/
theorem Action.Keeps.map {ε α β : Type} {R : World → World → Prop} {s : Setting} {a : Action ε α}
    (h : Action.Keeps R s a) (f : α → β) : Action.Keeps R s (do return f (← a)) := by
  intro w
  have kept := h w
  rw [run_bind]
  rcases hr : a.run s w with ⟨_ | x, w₁⟩
  · rwa [hr] at kept
  · rwa [hr] at kept

/-! ## Conditions -/

namespace Conditional

/-- The condition that is asked before the first round, and the answer by which there is one. -/
def guard? : Conditional → Option (String × Bool)
  | onlyIf e => some (e, true)
  | .unless e => some (e, false)
  | none | .while _ | .until _ => Option.none

/-- The condition that is asked after a round, and the answer by which there is another. -/
def loop? : Conditional → Option (String × Bool)
  | .while e => some (e, true)
  | .until e => some (e, false)
  | none | onlyIf _ | .unless _ => Option.none

end Conditional

namespace Condition

/-- Whether a condition has the wanted answer; if there is none, nothing is asked. -/
def meets (scope : Bindings) (unasked : Bool) : Option (String × Bool) → Action RunError Bool
  | none => pure unasked
  | some (e, wanted) => do return (← holds e scope) == wanted

/-- The stages of asking a condition. -/
def checks : Option (String × Bool) → List Event
  | none => []
  | some (e, _) => [.checking e]

theorem allows_eq (scope : Bindings) (c : Conditional) :
    allows scope c = meets scope true c.guard? := by
  cases c <;> simp [allows, meets, Conditional.guard?]

theorem repeats_eq (scope : Bindings) (c : Conditional) :
    repeats scope c = meets scope false c.loop? := by
  cases c <;> simp [repeats, meets, Conditional.loop?]

variable {s : Setting}

theorem call_quiet (name : String) (args : List Value) :
    Action.Keeps (World.Does (·.isStage = false)) s (Helper.call name args) :=
  (Helper.call_keeps name args).mono fun _ _ does =>
    does.mono fun _ => Event.isStage_of_byExpression

theorem holds_passes (e : String) (scope : Bindings) :
    Action.Keeps (World.Passes [.checking e]) s (holds e scope) := by
  intro w
  rw [holds, Action.run_record_bind]
  refine World.Passes.quiet (.noted rfl) (Action.Keeps.bind ?_ (fun v => ?_) _)
  · exact .mapError (evaluate_keeps call_quiet e scope)
  · split
    · exact .pure _
    · exact .fail _

/-- Asking a condition is one stage. -/
theorem meets_passes (scope : Bindings) (unasked : Bool) :
    ∀ c, Action.Keeps (World.Passes (checks c)) s (meets scope unasked c)
  | none => fun w => .of_does (refl_of _ w)
  | some (e, _) => .map (holds_passes e scope) _

theorem meets_raises (scope : Bindings) (unasked : Bool) :
    ∀ c, Action.Raises RunError.isAsked (meets scope unasked c)
  | none => .pure _
  | some (e, _) => .bind (holds_raises e scope) fun _ => .pure _

end Condition

/-! ## Arguments and commands -/

variable {s : Setting} {r : Rule} {d : Directive} {scope : Bindings}

/-- Binding the arguments is one stage. -/
theorem Binding.bind_passes (r : Rule) (d : Directive) :
    Action.Keeps (World.Passes [.binding r.identifier]) s (bind r d) := by
  intro w
  rw [bind, Action.run_record_bind]
  refine World.Passes.quiet (.noted rfl) ?_
  split
  · exact bindArguments_keeps Condition.call_quiet d r.arguments _ _
  · exact refl_of _ _

namespace Execution

theorem stopped?_does {P : Event → Prop} (shown : ∀ n, P (.shown n)) :
    Action.Keeps (World.Does P) s stopped? := by
  refine .bind .haltCode? fun code => ?_
  split
  · exact .pure _
  · exact .bind (.record fun w => .noted (shown _) nofun) fun _ => .pure _

theorem progress_does {P : Event → Prop} (shown : ∀ n, P (.shown n)) (st : Status) :
    Action.Keeps (World.Does P) s (progress st) := by
  refine .bind (stopped?_does shown) fun x => ?_
  split <;> exact .pure _

/-- What is done after a command has succeeded or failed. -/
theorem afterCommand_does {P : Event → Prop} (shown : ∀ n, P (.shown n))
    (finished : ∀ command success, P (.finished command success))
    (halted : ∀ code, P (.halted s.file.path code)) (st : Status) (command : RuleCommand)
    (success : Bool) :
    Action.Keeps (World.Does P) s (do
      Action.record (.finished command success)
      let s ← Action.setting
      if success then progress st
      else if s.options.haltOnErrors then haltAfterFailure
      else progress .externalCallFailed) := by
  refine .bind (.record fun w => .noted (finished _ _) nofun) fun _ => ?_
  refine .bind_setting <| .ite (progress_does shown st) <| .ite ?_ (progress_does shown _)
  refine .bind (fun w => ⟨_, w.leads_halt s.file.path _, by simpa using halted _⟩) fun _ => ?_
  exact .pure _

theorem runCommand_quiet (r : Rule) (conditional : Conditional) (scope : Bindings) (st : Status)
    (command : RuleCommand) : Action.Keeps (World.Does (·.isStage = false)) s
      (runCommand r conditional scope st command) := by
  have ran := (Command.run_does (s := s) ⟨r, command, conditional⟩ scope).mono fun _ _ does =>
    does.mono fun _ => Event.isStage_of_byCommand
  exact .bind ran
    (afterCommand_does (fun _ => rfl) (fun _ _ => rfl) (fun _ => rfl) st command)

/-- Running the commands is no stage. -/
theorem runCommands_quiet (r : Rule) (conditional : Conditional) (scope : Bindings) :
    ∀ (commands : List RuleCommand) (st : Status),
      Action.Keeps (World.Does (·.isStage = false)) s (runCommands r conditional scope st commands)
  | [], _ => .pure _
  | command :: rest, st => by
    refine .bind (runCommand_quiet r conditional scope st command) fun p => ?_
    split
    · exact runCommands_quiet r conditional scope rest _
    · exact .pure _

/-- Commands only end a directive by a halt. -/
theorem progress_ended {w w' : World} {st terminal : Status}
    (h : (progress st).run s w = (.ok (.ended terminal), w')) :
    ∃ code, w'.session.haltCode? s.file.path = some code ∧ terminal = .ofHaltCode code := by
  rw [progress] at h
  rcases stopped?_bind_cases h with ⟨_, goes⟩ | ⟨code, halted, ends⟩
  · cases goes
  · cases ends
    exact ⟨code, halted, rfl⟩

theorem runCommand_ended {conditional : Conditional} {st terminal : Status} {command : RuleCommand}
    {w w' : World}
    (h : (runCommand r conditional scope st command).run s w = (.ok (.ended terminal), w')) :
    ∃ code, w'.session.haltCode? s.file.path = some code ∧ terminal = .ofHaltCode code := by
  obtain ⟨success, w₁, _, h⟩ := Action.run_bind_ok h
  rw [Action.run_record_bind, Action.run_setting_bind] at h
  split at h
  · exact progress_ended h
  · split at h
    · cases h
      exact ⟨_, Session.haltCode?_halt_self .., rfl⟩
    · exact progress_ended h

theorem runCommands_ended {conditional : Conditional} {terminal : Status} {w' : World} :
    ∀ {commands : List RuleCommand} {st : Status} {w : World},
      (runCommands r conditional scope st commands).run s w = (.ok (.ended terminal), w') →
      ∃ code, w'.session.haltCode? s.file.path = some code ∧ terminal = .ofHaltCode code
  | [], _, _, h => by cases h
  | command :: rest, st, w, h => by
    obtain ⟨p, w₁, ran, others⟩ := Action.run_bind_ok h
    cases p with
    | goesOn st' => exact runCommands_ended others
    | ended terminal' =>
      cases others
      exact runCommand_ended ran

/-! ## Rounds -/

/-- A round is completed: its commands raise no error and do not halt the file. -/
def Completes (s : Setting) (r : Rule) (d : Directive) (scope : Bindings) (number : UInt32)
    (st : Status) (w : World) (st' : Status) (w' : World) : Prop :=
  (runCommands r d.conditional scope st r.commands).run s (w.noted (.round number)) =
      (.ok (.goesOn st'), w') ∧
    w'.session.haltCode? s.file.path = none

/-- The condition of the loop asks for another round, without halting the file. -/
def AsksOn (s : Setting) (d : Directive) (scope : Bindings) (w w' : World) : Prop :=
  (Condition.meets scope false d.conditional.loop?).run s w = (.ok true, w') ∧
    w'.session.haltCode? s.file.path = none

/-- So many rounds have been completed, and another one was asked for after each of them. -/
inductive Repeated (s : Setting) (r : Rule) (d : Directive) (scope : Bindings) (w₀ : World) :
    Nat → Status → World → Prop
  | start : Repeated s r d scope w₀ 0 .processing w₀
  | again {n st w st' w₁ w₂} : Repeated s r d scope w₀ n st w →
    Completes s r d scope (.ofNat (n + 1)) st w st' w₁ → AsksOn s d scope w₁ w₂ →
    Repeated s r d scope w₀ (n + 1) st' w₂

/-- The round after the first `n` is the last one. It says whether the round is completed, what
comes of the directive, and the world it leaves. -/
inductive Last (s : Setting) (r : Rule) (d : Directive) (scope : Bindings) (n : Nat) (st : Status)
    (w : World) : Bool → Except RunError Status → World → Prop
  /-- A command raises an error. -/
  | failed {e w'} : (runCommands r d.conditional scope st r.commands).run s
      (w.noted (.round (.ofNat (n + 1)))) = (.error e, w') →
    Last s r d scope n st w false (.error e) w'
  /-- A command halts the file. -/
  | stopped {code w'} : (runCommands r d.conditional scope st r.commands).run s
      (w.noted (.round (.ofNat (n + 1)))) = (.ok (.ended (.ofHaltCode code)), w') →
    w'.session.haltCode? s.file.path = some code →
    Last s r d scope n st w false (.ok (.ofHaltCode code)) w'
  /-- The condition of the loop raises an error. -/
  | unanswered {st' w₁ e w'} : Completes s r d scope (.ofNat (n + 1)) st w st' w₁ →
    (Condition.meets scope false d.conditional.loop?).run s w₁ = (.error e, w') →
    Last s r d scope n st w true (.error e) w'
  /-- The condition of the loop halts the file. -/
  | halted {st' w₁ again w₂ code} : Completes s r d scope (.ofNat (n + 1)) st w st' w₁ →
    (Condition.meets scope false d.conditional.loop?).run s w₁ = (.ok again, w₂) →
    w₂.session.haltCode? s.file.path = some code →
    Last s r d scope n st w true (.ok (.ofHaltCode code)) (w₂.noted (.shown (.halted code)))
  /-- No other round is asked for. -/
  | done {st' w₁ w'} : Completes s r d scope (.ofNat (n + 1)) st w st' w₁ →
    (Condition.meets scope false d.conditional.loop?).run s w₁ = (.ok false, w') →
    w'.session.haltCode? s.file.path = none → Last s r d scope n st w true (.ok st') w'
  /-- Another round is asked for, but there may be no more. -/
  | exceeded {st' w₁ w'} : Completes s r d scope (.ofNat (n + 1)) st w st' w₁ →
    AsksOn s d scope w₁ w' → n + 1 = s.options.maxLoops.toNat →
    Last s r d scope n st w true
      (.error (.loopBoundExceeded d.identifier s.options.maxLoops)) w'

section Rounds

variable {w₀ w w' : World} {st : Status} {n : Nat}

/-- A round is followed by another one, or it is the last one, where the bound apart nothing is
known of what comes after it. -/
theorem round_cases {x : Except RunError Progress}
    (running : w.session.haltCode? s.file.path = none)
    (h : (round r d scope (.ofNat (n + 1)) st).run s w = (x, w')) :
    (∃ st' w₁, x = .ok (.goesOn st') ∧ Completes s r d scope (.ofNat (n + 1)) st w st' w₁ ∧
        AsksOn s d scope w₁ w') ∨
      ∃ completed result, x = result.map .ended ∧ Last s r d scope n st w completed result w' := by
  rw [round, Action.run_record_bind] at h
  rcases Action.run_bind_cases h with ⟨e, ran, rfl⟩ | ⟨p, w₁, ran, h⟩
  · exact .inr ⟨false, .error e, rfl, .failed ran⟩
  cases p with
  | ended terminal =>
    cases h
    obtain ⟨code, halted, rfl⟩ := runCommands_ended ran
    exact .inr ⟨false, .ok (.ofHaltCode code), rfl, .stopped ran halted⟩
  | goesOn st' =>
    have begun : (w.noted (.round (.ofNat (n + 1)))).session.haltCode? s.file.path = none :=
      running
    obtain ⟨_, _, _, unhalted⟩ := runCommands_accounts (r := r) (fun _ hc => hc) begun ran
    have completes : Completes s r d scope (.ofNat (n + 1)) st w st' w₁ := ⟨ran, unhalted⟩
    rw [Condition.repeats_eq] at h
    -- all commands are completed, and what is left is whether to go round again
    rcases Action.run_bind_cases h with ⟨e, asked, rfl⟩ | ⟨again, w₂, asked, h⟩
    · exact .inr ⟨true, .error e, rfl, .unanswered completes asked⟩
    rcases stopped?_bind_cases h with ⟨going, h⟩ | ⟨code, halted, h⟩
    · cases again with
      | true =>
        cases h
        exact .inl ⟨st', w₁, rfl, completes, asked, going⟩
      | false =>
        cases h
        exact .inr ⟨true, .ok st', rfl, .done completes asked going⟩
    · cases h
      exact .inr ⟨true, .ok (.ofHaltCode code), rfl, .halted completes asked halted⟩

/-- After a round that is completed, another one is begun if it is asked for. -/
theorem round_asksOn {number : UInt32} {st' : Status} {w₁ w₂ : World}
    (completes : Completes s r d scope number st w st' w₁) (asks : AsksOn s d scope w₁ w₂) :
    (round r d scope number st).run s w = (.ok (.goesOn st'), w₂) := by
  rw [round, Action.run_record_bind, Action.run_bind, completes.1]
  simp only
  rw [Condition.repeats_eq, Action.run_bind, asks.1]
  simp only
  rw [Action.run_bind, run_stopped?, asks.2]
  rfl

theorem rounds_asksOn {number : UInt32} {st' : Status} {w₁ w₂ : World}
    (completes : Completes s r d scope number st w st' w₁) (asks : AsksOn s d scope w₁ w₂)
    (left : Nat) : (rounds r d scope number st (left + 1)).run s w =
      (rounds r d scope (number + 1) st' left).run s w₂ := by
  rw [rounds, Action.run_bind, round_asksOn completes asks]

theorem ofNat_succ (n : Nat) : UInt32.ofNat (n + 1) = UInt32.ofNat n + 1 := UInt32.ofNat_add n 1

/-- The loop starts with the rounds that are followed by another one. -/
theorem rounds_repeated (h : Repeated s r d scope w₀ n st w) (left : Nat) :
    (rounds r d scope 1 .processing (n + left)).run s w₀ =
      (rounds r d scope (.ofNat (n + 1)) st left).run s w := by
  induction h generalizing left with
  | start => rw [Nat.zero_add]; rfl
  | @again n st w st' w₁ w₂ _ completes asks ih =>
    calc (rounds r d scope 1 .processing (n + 1 + left)).run s w₀
        = (rounds r d scope 1 .processing (n + (left + 1))).run s w₀ := by
          rw [Nat.add_assoc, Nat.add_comm 1 left]
      _ = (rounds r d scope (.ofNat (n + 1)) st (left + 1)).run s w := ih (left + 1)
      _ = (rounds r d scope (.ofNat (n + 1 + 1)) st' left).run s w₂ := by
          rw [ofNat_succ (n + 1)]
          exact rounds_asksOn completes asks left

/-- The first round of a loop is the last one, or it is followed by the others, if there may be
any. -/
theorem rounds_cases {left : Nat} {x : Except RunError Status}
    (running : w.session.haltCode? s.file.path = none)
    (h : (rounds r d scope (.ofNat (n + 1)) st left).run s w = (x, w')) :
    (∃ completed, Last s r d scope n st w completed x w') ∨
      ∃ st' w₁ w₂, Completes s r d scope (.ofNat (n + 1)) st w st' w₁ ∧ AsksOn s d scope w₁ w₂ ∧
        ((left = 0 ∧ x = .error (.loopBoundExceeded d.identifier s.options.maxLoops) ∧ w' = w₂) ∨
          ∃ left', left = left' + 1 ∧
            (rounds r d scope (.ofNat (n + 2)) st' left').run s w₂ = (x, w')) := by
  rw [rounds] at h
  rcases Action.run_bind_cases h with ⟨e, ran, rfl⟩ | ⟨p, w₂, ran, h⟩
  · -- a round that fails is the last one
    rcases round_cases running ran with ⟨_, _, impossible, _⟩ | ⟨completed, result, same, last⟩
    · cases impossible
    · cases result with
      | error e' =>
        cases same
        exact .inl ⟨completed, last⟩
      | ok st' => cases same
  · rcases round_cases running ran with
      ⟨st', w₁, same, completes, asks⟩ | ⟨completed, result, same, last⟩
    · cases same
      refine .inr ⟨st', w₁, w₂, completes, asks, ?_⟩
      cases left with
      | zero =>
        cases h
        exact .inl ⟨rfl, rfl, rfl⟩
      | succ left =>
        rw [← ofNat_succ] at h
        exact .inr ⟨left, rfl, h⟩
    · cases result with
      | error e' => cases same
      | ok st' =>
        cases same
        cases h
        exact .inl ⟨completed, last⟩

/-- The rounds of a directive end with a last one, within the bound. -/
theorem rounds_last {left : Nat} :
    ∀ {n : Nat} {st : Status} {w : World} {x : Except RunError Status},
      n + 1 + left = s.options.maxLoops.toNat → w.session.haltCode? s.file.path = none →
      Repeated s r d scope w₀ n st w →
      (rounds r d scope (.ofNat (n + 1)) st left).run s w = (x, w') →
      ∃ n' st' w₁ completed, n' < s.options.maxLoops.toNat ∧ Repeated s r d scope w₀ n' st' w₁ ∧
        Last s r d scope n' st' w₁ completed x w' := by
  -- on how many rounds are left, where those done and those left add up to the bound
  induction left with
  | zero =>
    intro n st w x bound running repeated h
    rcases rounds_cases running h with ⟨completed, last⟩ | ⟨st', w₁, w₂, completes, asks, ended⟩
    · exact ⟨n, st, w, completed, by omega, repeated, last⟩
    · rcases ended with ⟨_, rfl, rfl⟩ | ⟨left', impossible, _⟩
      · exact ⟨n, st, w, true, by omega, repeated, .exceeded completes asks bound⟩
      · cases impossible
  | succ left ih =>
    intro n st w x bound running repeated h
    rcases rounds_cases running h with ⟨completed, last⟩ | ⟨st', w₁, w₂, completes, asks, ended⟩
    · exact ⟨n, st, w, completed, by omega, repeated, last⟩
    · rcases ended with ⟨impossible, _, _⟩ | ⟨left', same, others⟩
      · cases impossible
      · cases same
        exact ih (by omega) asks.2 (repeated.again completes asks) others

end Rounds

/-! ### The stages of rounds -/

/-- The stages of a round with a number, in which the condition of the loop is asked if the round is
completed. -/
def roundStages (c : Conditional) (completed : Bool) (number : Nat) : List Event :=
  .round (.ofNat number) :: if completed then Condition.checks c.loop? else []

section Stages

variable {w₀ w w' : World} {st st' : Status} {n : Nat}

theorem Completes.passes {number : UInt32} (h : Completes s r d scope number st w st' w') :
    w.Passes [.round number] w' :=
  World.Passes.quiet (.noted rfl) ((runCommands_quiet r _ scope _ _).of_run h.1)

theorem AsksOn.passes (h : AsksOn s d scope w w') :
    w.Passes (Condition.checks d.conditional.loop?) w' :=
  (Condition.meets_passes scope _ _).of_run h.1

/-- The rounds before the last one have the numbers from one on. -/
theorem Repeated.passes (h : Repeated s r d scope w₀ n st w) :
    w₀.Passes ((List.range' 1 n).flatMap (roundStages d.conditional true)) w := by
  induction h with
  | start => exact .of_does (refl_of _ w₀)
  | @again n st w st' w₁ w₂ _ completes asks ih =>
    have next := ih.trans (completes.passes.trans asks.passes)
    rw [List.range'_concat, List.flatMap_append, Nat.one_mul, Nat.add_comm 1 n]
    simpa [roundStages] using next

theorem Last.passes {completed : Bool} {x : Except RunError Status}
    (h : Last s r d scope n st w completed x w') :
    w.Passes (roundStages d.conditional completed (n + 1)) w' := by
  have asked {st' : Status} {w₁ w₂ : World} {x : Except RunError Bool}
      (completes : Completes s r d scope (.ofNat (n + 1)) st w st' w₁)
      (h : (Condition.meets scope false d.conditional.loop?).run s w₁ = (x, w₂)) :
      w.Passes (roundStages d.conditional true (n + 1)) w₂ :=
    completes.passes.trans ((Condition.meets_passes scope _ _).of_run h)
  have begun : w.Passes [.round (.ofNat (n + 1))] (w.noted (.round (.ofNat (n + 1)))) := .noted rfl
  cases h with
  | failed ran => exact begun.quiet ((runCommands_quiet r _ scope _ _).of_run ran)
  | stopped ran _ => exact begun.quiet ((runCommands_quiet r _ scope _ _).of_run ran)
  | unanswered completes h => exact asked completes h
  | halted completes h _ => exact (asked completes h).quiet (.noted rfl nofun)
  | done completes h _ => exact asked completes h
  | exceeded completes h _ => exact asked completes h.1

end Stages

/-! ## Directives -/

/-- The arguments are bound, and the guard lets the directive run, without halting the file. -/
def Allowed (s : Setting) (r : Rule) (d : Directive) (w : World) (scope : Bindings) (w' : World) :
    Prop :=
  ∃ w₁, (Binding.bind r d).run s w = (.ok scope, w₁) ∧
    (Condition.meets scope true d.conditional.guard?).run s w₁ = (.ok true, w') ∧
    w'.session.haltCode? s.file.path = none

/-- The stages up to the first round. -/
def openingStages (r : Rule) (c : Conditional) : List Event :=
  .binding r.identifier :: Condition.checks c.guard?

/-- How a rule is executed for a directive: its stages, what comes of it, and the world it
leaves. -/
inductive Course (s : Setting) (r : Rule) (d : Directive) (w : World) :
    List Event → Except RunError Status → World → Prop
  /-- The arguments cannot be bound. -/
  | unbound {e w'} : (Binding.bind r d).run s w = (.error e, w') →
    Course s r d w [.binding r.identifier] (.error e) w'
  /-- The guard raises an error. -/
  | unanswered {scope w₁ e w'} : (Binding.bind r d).run s w = (.ok scope, w₁) →
    (Condition.meets scope true d.conditional.guard?).run s w₁ = (.error e, w') →
    Course s r d w (openingStages r d.conditional) (.error e) w'
  /-- The arguments or the guard halt the file. -/
  | halted {scope w₁ allowed w₂ code} : (Binding.bind r d).run s w = (.ok scope, w₁) →
    (Condition.meets scope true d.conditional.guard?).run s w₁ = (.ok allowed, w₂) →
    w₂.session.haltCode? s.file.path = some code →
    Course s r d w (openingStages r d.conditional) (.ok (.ofHaltCode code))
      (w₂.noted (.shown (.halted code)))
  /-- The guard does not let the directive run. -/
  | refused {scope w₁ w'} : (Binding.bind r d).run s w = (.ok scope, w₁) →
    (Condition.meets scope true d.conditional.guard?).run s w₁ = (.ok false, w') →
    w'.session.haltCode? s.file.path = none →
    Course s r d w (openingStages r d.conditional) (.ok .processing) w'
  /-- The commands are run in rounds, as many as the bound at most. -/
  | ran {scope w₀ n st w₁ completed x w'} : Allowed s r d w scope w₀ →
    n < s.options.maxLoops.toNat → Repeated s r d scope w₀ n st w₁ →
    Last s r d scope n st w₁ completed x w' →
    Course s r d w (openingStages r d.conditional ++
      (List.range' 1 n).flatMap (roundStages d.conditional true) ++
      roundStages d.conditional completed (n + 1)) x w'

section Directive

variable {w w' : World} {x : Except RunError Status} {stages : List Event}

theorem executeRule_course (bounded : 1 ≤ s.options.maxLoops.toNat)
    (h : (executeRule r d).run s w = (x, w')) : ∃ stages, Course s r d w stages x w' := by
  rcases Action.run_bind_cases h with ⟨e, bound, rfl⟩ | ⟨scope, w₁, bound, h⟩
  · exact ⟨_, .unbound bound⟩
  rw [Condition.allows_eq] at h
  rcases Action.run_bind_cases h with ⟨e, asked, rfl⟩ | ⟨allowed, w₂, asked, h⟩
  · exact ⟨_, .unanswered bound asked⟩
  rcases stopped?_bind_cases h with ⟨running, h⟩ | ⟨code, halted, h⟩
  · cases allowed with
    | false =>
      cases h
      exact ⟨_, .refused bound asked running⟩
    | true =>
      obtain ⟨n, st, w₁, completed, lt, repeated, last⟩ :=
        rounds_last (n := 0) (by omega) running .start h
      exact ⟨_, .ran ⟨_, bound, asked, running⟩ lt repeated last⟩
  · cases h
    exact ⟨_, .halted bound asked halted⟩

theorem Course.passes (h : Course s r d w stages x w') : w.Passes stages w' := by
  have opened {scope : Bindings} {w₁ w₂ : World} {x : Except RunError Bool}
      (bound : (Binding.bind r d).run s w = (.ok scope, w₁))
      (asked : (Condition.meets scope true d.conditional.guard?).run s w₁ = (x, w₂)) :
      w.Passes (openingStages r d.conditional) w₂ :=
    ((Binding.bind_passes r d).of_run bound).trans ((Condition.meets_passes scope _ _).of_run asked)
  cases h with
  | unbound bound => exact (Binding.bind_passes r d).of_run bound
  | unanswered bound asked => exact opened bound asked
  | halted bound asked _ => exact (opened bound asked).quiet (.noted rfl nofun)
  | refused bound asked _ => exact opened bound asked
  | ran allowed _ repeated last =>
    obtain ⟨w₁, bound, asked, _⟩ := allowed
    exact ((opened bound asked).trans repeated.passes).trans last.passes

/-- Asking a condition starts no round. -/
theorem filterMap_round?_checks (c : Option (String × Bool)) :
    (Condition.checks c).filterMap Event.round? = [] := by
  cases c <;> rfl

/-- A round has its number. -/
theorem filterMap_round?_roundStages (c : Conditional) (completed : Bool) (number : Nat) :
    (roundStages c completed number).filterMap Event.round? = [.ofNat number] := by
  cases completed <;> simp [roundStages, Event.round?, filterMap_round?_checks]

/-- Numbers up to one of 32 bits have 32 bits. -/
theorem map_toNat_range {k : Nat} {bound : UInt32} (le : k ≤ bound.toNat) :
    ((List.range' 1 k).map UInt32.ofNat).map UInt32.toNat = List.range' 1 k := by
  rw [List.map_map]
  refine (List.map_congr_left fun i mem => ?_).trans (List.map_id _)
  have small := bound.toNat_lt
  have within := (List.mem_range'_1.mp mem).2
  exact UInt32.toNat_ofNat_of_lt' (show i < 2 ^ 32 by omega)

/-- No round starts before the guard lets the directive run. -/
theorem filterMap_round?_openingStages (r : Rule) (c : Conditional) :
    (openingStages r c).filterMap Event.round? = [] :=
  filterMap_round?_checks c.guard?

/-- There are rounds exactly if the arguments are bound and the guard lets the directive run. -/
theorem Course.rounds_ne_nil_iff (h : Course s r d w stages x w') :
    stages.filterMap Event.round? ≠ [] ↔ ∃ scope w₀, Allowed s r d w scope w₀ := by
  have opening := filterMap_round?_openingStages r d.conditional
  constructor
  · intro some
    cases h with
    | unbound _ => exact absurd rfl some
    | unanswered _ _ | halted _ _ _ | refused _ _ _ => exact absurd opening some
    | ran allowed _ _ _ => exact ⟨_, _, allowed⟩
  · -- the arguments are bound and the guard is asked once only, with one result
    rintro ⟨scope, w₀, w₁, bound, asked, running⟩
    cases h with
    | unbound unbound => cases bound.symm.trans unbound
    | unanswered bound' fails =>
      cases bound.symm.trans bound'
      cases asked.symm.trans fails
    | halted bound' asked' halted =>
      cases bound.symm.trans bound'
      cases asked.symm.trans asked'
      cases running.symm.trans halted
    | refused bound' refuses _ =>
      cases bound.symm.trans bound'
      cases asked.symm.trans refuses
    | ran _ _ _ _ =>
      rw [List.filterMap_append, filterMap_round?_roundStages]
      simp

/-- The rounds are numbered from one on, and without a condition of the loop there is one of
them. -/
theorem Course.numbers (h : Course s r d w stages x w') :
    ∃ k ≤ s.options.maxLoops.toNat,
      (stages.filterMap Event.round?).map UInt32.toNat = List.range' 1 k ∧
        (d.conditional.loop? = none → k ≤ 1) := by
  have opening := filterMap_round?_openingStages r d.conditional
  cases h with
  | unbound _ => exact ⟨0, Nat.zero_le _, rfl, fun _ => Nat.zero_le 1⟩
  | unanswered _ _ | halted _ _ _ | refused _ _ _ =>
    exact ⟨0, Nat.zero_le _, by simp [opening], fun _ => Nat.zero_le 1⟩
  | @ran _ _ n _ _ completed _ _ _ lt repeated _ =>
    refine ⟨n + 1, lt, ?_, fun unasked => ?_⟩
    · have numbered : (openingStages r d.conditional ++
          (List.range' 1 n).flatMap (roundStages d.conditional true) ++
          roundStages d.conditional completed (n + 1)).filterMap Event.round? =
            (List.range' 1 (n + 1)).map UInt32.ofNat := by
        rw [List.range'_concat, List.map_append, List.map_eq_flatMap]
        simp only [List.filterMap_append, List.filterMap_flatMap, opening,
          filterMap_round?_roundStages, List.nil_append]
        simp [Nat.add_comm]
      -- the number of a round is at most the bound, so it never wraps around
      rw [numbered, map_toNat_range lt]
    · -- a round is only followed by another one if a condition asks for it
      cases repeated with
      | start => exact Nat.le_refl 1
      | again _ _ asks =>
        have asked := asks.1
        rw [unasked] at asked
        cases asked

/-- An error is one of a part of the rule, or that there were too many rounds. -/
theorem Course.error_cases {e : RunError} (h : Course s r d w stages (.error e) w') :
    e.isLocal ∨ (e = .loopBoundExceeded d.identifier s.options.maxLoops ∧
      ∃ scope w₀ st w₁, Allowed s r d w scope w₀ ∧
        Repeated s r d scope w₀ s.options.maxLoops.toNat st w₁) := by
  cases h with
  | unbound bound => exact .inl (RunError.isLocal_of_isAsked (Binding.bind_raises r d _ _ _ _ bound))
  | unanswered _ asked =>
    exact .inl (RunError.isLocal_of_isAsked (Condition.meets_raises _ _ _ _ _ _ _ asked))
  | @ran scope w₀ n st w₁ _ _ _ allowed _ repeated last =>
    cases last with
    | failed ran => exact .inl (runCommands_raises _ _ _ _ _ _ _ _ _ ran)
    | unanswered _ asked =>
      exact .inl (RunError.isLocal_of_isAsked (Condition.meets_raises _ _ _ _ _ _ _ asked))
    | exceeded completes asks bound =>
      have all := repeated.again completes asks
      rw [bound] at all
      exact .inr ⟨rfl, scope, w₀, _, _, allowed, all⟩

theorem executeRule_allowed {w₀ : World} (h : Allowed s r d w scope w₀) :
    (executeRule r d).run s w =
      (rounds r d scope 1 .processing (s.options.maxLoops.toNat - 1)).run s w₀ := by
  obtain ⟨w₁, bound, asked, running⟩ := h
  rw [executeRule, Action.run_bind, bound]
  simp only
  rw [Condition.allows_eq, Action.run_bind, asked]
  simp only
  rw [Action.run_bind, run_stopped?, running]
  rfl

/-- As many completed rounds as there may be, with another one asked for, are too many. -/
theorem executeRule_exceeds (bounded : 1 ≤ s.options.maxLoops.toNat) {w₀ w₁ : World} {st : Status}
    (allowed : Allowed s r d w scope w₀)
    (repeated : Repeated s r d scope w₀ s.options.maxLoops.toNat st w₁) :
    ((executeRule r d).run s w).1 =
      .error (.loopBoundExceeded d.identifier s.options.maxLoops) := by
  obtain ⟨n, bound⟩ := Nat.exists_eq_add_of_le' bounded
  rw [bound] at repeated
  cases repeated with
  | again repeated completes asks =>
    have last := rounds_repeated repeated 0
    rw [executeRule_allowed allowed, bound, Nat.add_sub_cancel]
    rw [Nat.add_zero] at last
    rw [last, rounds, Action.run_bind, round_asksOn completes asks]
    rfl

/-- A directive is executed with a rule: the file is not halted, and the rule is found and
loaded. -/
def Starts (s : Setting) (w : World) (d : Directive) (ruleFile : Path) (r : Rule) : Prop :=
  w.session.haltCode? s.file.path = none ∧
    Rule.resolve w.files d.identifier s.options.rulePaths = .ok ruleFile ∧
    Rule.load w.files ruleFile d.identifier = .ok r

/-- A directive is executed with a rule, whose errors are put into it, or it has no stages and does
not get as far as any round. -/
theorem execute_cases (h : (execute d).run s w = (x, w')) :
    ((∀ ruleFile r, ¬Starts s w d ruleFile r) ∧ w.Passes [] w' ∧
        ∀ e, x = .error e → ∀ identifier m, e.root ≠ .loopBoundExceeded identifier m) ∨
      ∃ ruleFile r result, Starts s w d ruleFile r ∧
        (executeRule r d).run s (w.noted (.executing s.file.path d.identifier)) = (result, w') ∧
        x = result.mapError (.within d.identifier ruleFile) := by
  have begun := World.Passes.executing (w := w) s.file.path d.identifier
  rw [execute, Action.run_haltCode?_bind] at h
  -- nothing starts after a halt, without a rule file, or with one that does not load
  split at h
  · next code halted =>
    cases h
    refine .inl ⟨fun ruleFile r starts => ?_, .of_does (refl_of _ w), fun e' same => ?_⟩
    · rw [starts.1] at halted
      cases halted
    · cases same
  · next running =>
    rw [Action.run_setting_bind, Action.run_record_bind, Action.run_world_bind, Action.run_bind,
      Action.run_ofExcept, World.files_noted] at h
    cases found : Rule.resolve w.files d.identifier s.options.rulePaths with
    | error e =>
      rw [found] at h
      cases h
      refine .inl ⟨fun ruleFile r starts => ?_, begun, fun e' same identifier m => ?_⟩
      · cases starts.2.1.symm.trans found
      · cases same
        simp [Rule.resolve_error found, RunError.root]
    | ok ruleFile =>
      rw [found] at h
      simp only at h
      rw [Action.run_mapError, executeFrom, Action.run_world_bind, Action.run_bind,
        Action.run_ofExcept, World.files_noted] at h
      cases loaded : Rule.load w.files ruleFile d.identifier with
      | error e =>
        rw [loaded] at h
        cases h
        refine .inl ⟨fun ruleFile' r starts => ?_, begun, fun e' same identifier m => ?_⟩
        · obtain rfl : ruleFile' = ruleFile := Except.ok.inj (starts.2.1.symm.trans found)
          cases starts.2.2.symm.trans loaded
        · cases same
          obtain ⟨problem, rfl⟩ := Rule.load_error loaded
          simp [RunError.within, RunError.root]
      | ok r =>
        rw [loaded] at h
        cases h
        exact .inr ⟨ruleFile, r, _, ⟨running, found, loaded⟩, rfl, rfl⟩

theorem Starts.unique {ruleFile ruleFile' : Path} {r r' : Rule} (h : Starts s w d ruleFile r)
    (h' : Starts s w d ruleFile' r') : ruleFile' = ruleFile ∧ r' = r := by
  obtain rfl : ruleFile' = ruleFile := Except.ok.inj (h'.2.1.symm.trans h.2.1)
  exact ⟨rfl, Except.ok.inj (h'.2.2.symm.trans h.2.2)⟩

/-- The error that there were too many rounds is raised exactly if the bound is met. -/
theorem execute_exceeds (bounded : 1 ≤ s.options.maxLoops.toNat)
    (h : (execute d).run s w = (x, w')) (identifier : String) (m : UInt32) :
    (∃ e, x = .error e ∧ e.root = .loopBoundExceeded identifier m) ↔
      identifier = d.identifier ∧ m = s.options.maxLoops ∧
        ∃ ruleFile r scope w₀ st w₁, Starts s w d ruleFile r ∧
          Allowed s r d (w.noted (.executing s.file.path d.identifier)) scope w₀ ∧
          Repeated s r d scope w₀ s.options.maxLoops.toNat st w₁ := by
  rcases execute_cases h with ⟨never, -, other⟩ | ⟨ruleFile, r, result, starts, ran, rfl⟩
  · constructor
    · rintro ⟨e, rfl, exceeds⟩
      exact absurd exceeds (other e rfl identifier m)
    · rintro ⟨-, -, ruleFile, r, -, -, -, -, starts, -⟩
      exact absurd starts (never ruleFile r)
  constructor
  · rintro ⟨e, same, exceeds⟩
    cases result with
    | ok st => cases same
    | error e' =>
      cases same
      obtain ⟨stages, course⟩ := executeRule_course bounded ran
      -- an error of a part of the rule is its own root, so it is not the one looked for
      rcases course.error_cases with ofPart | ⟨rfl, scope, w₀, st, w₁, allowed, repeated⟩
      · rw [RunError.root_within_of_isLocal ofPart] at exceeds
        subst exceeds
        exact ofPart.elim
      · cases exceeds
        exact ⟨rfl, rfl, ruleFile, r, scope, w₀, st, w₁, starts, allowed, repeated⟩
  · rintro ⟨rfl, rfl, ruleFile', r', scope, w₀, st, w₁, starts', allowed, repeated⟩
    obtain ⟨rfl, rfl⟩ := starts.unique starts'
    have exceeds := executeRule_exceeds bounded allowed repeated
    rw [ran] at exceeds
    cases exceeds
    exact ⟨_, rfl, rfl⟩

/-- The rounds of a course: as many as the guard, the condition of the loop and the bound allow. -/
theorem Course.rounds (h : Course s r d w stages x w') :
    ∃ k ≤ s.options.maxLoops.toNat,
      (stages.filterMap Event.round?).map UInt32.toNat = List.range' 1 k ∧
        (0 < k ↔ ∃ scope w₀, Allowed s r d w scope w₀) ∧
        (d.conditional.loop? = none → k ≤ 1) := by
  obtain ⟨k, le, numbers, once⟩ := h.numbers
  have count : (stages.filterMap Event.round?).length = k := by
    simpa using congrArg List.length numbers
  refine ⟨k, le, numbers, ?_, once⟩
  rw [← h.rounds_ne_nil_iff, ← count, List.length_pos_iff]

/-- **How often a directive runs.** A directive that is executed has a course, whose stages are
those of the journal: the arguments are bound once, the guard is asked at most once, and each
completed round is followed by asking the condition of the loop once, if there is one. There are
rounds exactly if the guard lets the directive run; they are numbered from one to at most the bound,
and without such a condition there is one of them at most. The bound is reported exactly if as many
rounds were completed and another one was asked for after each of them. -/
theorem execute_course (bounded : 1 ≤ s.options.maxLoops) (h : (execute d).run s w = (x, w')) :
    (((∀ ruleFile r, ¬Starts s w d ruleFile r) ∧ w.Passes [] w') ∨
      ∃ ruleFile r stages result, Starts s w d ruleFile r ∧
        Course s r d (w.noted (.executing s.file.path d.identifier)) stages result w' ∧
        x = result.mapError (.within d.identifier ruleFile) ∧ w.Passes stages w' ∧
        ∃ k ≤ s.options.maxLoops.toNat,
          (stages.filterMap Event.round?).map UInt32.toNat = List.range' 1 k ∧
            (0 < k ↔ ∃ scope w₀,
              Allowed s r d (w.noted (.executing s.file.path d.identifier)) scope w₀) ∧
            (d.conditional.loop? = none → k ≤ 1)) ∧
      ∀ identifier m, (∃ e, x = .error e ∧ e.root = .loopBoundExceeded identifier m) ↔
        identifier = d.identifier ∧ m = s.options.maxLoops ∧
          ∃ ruleFile r scope w₀ st w₁, Starts s w d ruleFile r ∧
            Allowed s r d (w.noted (.executing s.file.path d.identifier)) scope w₀ ∧
            Repeated s r d scope w₀ s.options.maxLoops.toNat st w₁ := by
  have bounded' : 1 ≤ s.options.maxLoops.toNat := UInt32.le_iff_toNat_le.mp bounded
  refine ⟨?_, execute_exceeds bounded' h⟩
  rcases execute_cases h with ⟨never, none, -⟩ | ⟨ruleFile, r, result, starts, ran, same⟩
  · exact .inl ⟨never, none⟩
  · obtain ⟨stages, course⟩ := executeRule_course bounded' ran
    have passes := (World.Passes.executing s.file.path d.identifier).trans course.passes
    exact .inr ⟨ruleFile, r, stages, result, starts, course, same, passes, course.rounds⟩

/-- A result is an error if it is found to be that error. -/
theorem eq_error_of {ε α : Type} [DecidableEq ε] {x : Except ε α} {e : ε}
    (h : (match x with
      | .error e' => decide (e' = e)
      | .ok _ => false) = true) : x = .error e := by
  cases x with
  | error e' => simpa using h
  | ok _ => cases h

/-- The setting for a document at the root in which a directive has two rounds at most. -/
def twoRounds : Setting :=
  let s := Setting.ofDocument "doc.tex" false
  { s with options := { s.options with maxLoops := 2 } }

/-- A directive that is repeated for ever. -/
def forever : Directive := { identifier := "check", conditional := .while "true" }

/-- A directive whose condition always holds meets the bound. -/
theorem execute_course_forever :
    1 ≤ twoRounds.options.maxLoops ∧
      ((execute forever).run twoRounds failingCheck).1 =
        .error (.inRule "check" ⟨"/"⟩ (.loopBoundExceeded "check" 2)) ∧
      ∃ ruleFile r scope w₀ st w₁, Starts twoRounds failingCheck forever ruleFile r ∧
        Repeated twoRounds r forever scope w₀ 2 st w₁ := by
  have exceeds : ((execute forever).run twoRounds failingCheck).1 =
      .error (.inRule "check" ⟨"/"⟩ (.loopBoundExceeded "check" 2)) :=
    eq_error_of (by decide +kernel)
  rcases hr : (execute forever).run twoRounds failingCheck with ⟨x, w'⟩
  rw [hr] at exceeds
  have course := execute_course (s := twoRounds) (by decide) hr
  obtain ⟨-, -, ruleFile, r, scope, w₀, st, w₁, starts, -, repeated⟩ :=
    (course.2 "check" 2).mp ⟨_, exceeds, rfl⟩
  exact ⟨by decide, exceeds, ruleFile, r, scope, w₀, st, w₁, starts, repeated⟩

end Directive

end Execution

end DirectiveRunner
