import DirectiveRunner.Proofs.Command
import DirectiveRunner.Run.Execution
/-!
# What directives do

A directive that is executed without an error ends with a status, and the status has two sources: the
halt of the file, if there is one, and the commands that failed otherwise. The status of the commands is
carried along from command to command and from round to round, while halts are noticed where the
directive looks for them. `Tally` says what holds of the status as long as the directive goes on, and
`Accounts` what holds of it once the directive has ended; `execute_status` draws the conclusion.

Commands are only run while the file is not halted, which `KeptByDirectives` makes use of: a relation
that commands keep under this assumption is kept by directives (`execute_keeps`). What a relation may
assume of the halt code while rounds are run is the parameter of `KeptByRounds`.
-/

namespace DirectiveRunner

namespace Event

/-- Whether an event is one that happens while a directive is executed. -/
def byDirective (file : Path) : Event → Prop
  | .executing _ _ => False
  | .launched _ f _ _ | .halted f _ | .rendering f _ | .rendered f _ | .judged f _ _ => f = file
  | _ => True

/-- Whether an event says that a command of a rule has failed. -/
def failsCommand (r : Rule) : Event → Bool
  | .finished command success => decide (command ∈ r.commands) && !success
  | _ => false

/-- Whether an event judges neither an entry nor a command. -/
def isSilent : Event → Bool
  | .judged _ _ _ | .finished _ _ => false
  | _ => true

/-- Whether an event says how far a directive is. -/
def isProgress : Event → Prop
  | .binding _ | .checking _ | .round _ | .finished _ _ | .shown (.halted _) => True
  | _ => False

theorem isSilent_of_byExpression {file : Path} {e : Event} (h : e.byExpression file) :
    e.isSilent = true := by
  cases e <;> first | rfl | exact h.elim

theorem byDirective_of_byExpression {file : Path} {e : Event} (h : e.byExpression file) :
    e.byDirective file := by
  unfold byExpression at h
  split at h <;> simp_all [byDirective]

theorem byDirective_of_byCommand {file : Path} {e : Event} (h : e.byCommand file) :
    e.byDirective file := by
  unfold byCommand at h
  split at h <;> simp_all [byDirective]

theorem byDirective_of_isProgress {e : Event} (h : e.isProgress) (file : Path) :
    e.byDirective file := by
  unfold isProgress at h
  split at h <;> simp_all [byDirective]

theorem failsEntry_of_isSilent {e : Event} (h : e.isSilent = true) : e.failsEntry = false := by
  cases e <;> first | rfl | cases h

theorem failsCommand_of_isSilent {e : Event} (h : e.isSilent = true) (r : Rule) :
    e.failsCommand r = false := by
  cases e <;> first | rfl | cases h

theorem failsCommand_of_byCommand {file : Path} {e : Event} (h : e.byCommand file) (r : Rule) :
    e.failsCommand r = false := by
  cases e <;> first | rfl | exact h.elim

end Event

/-! ## Arguments and conditions -/

section Keeps

variable {R : World → World → Prop} [IsPreorder World R] {s : Setting}

theorem Binding.argumentValue_keeps (calls : ∀ name args, Action.Keeps R s (Helper.call name args))
    (d : Directive) (a : Argument) : Action.Keeps R s (argumentValue d a) := by
  refine .ite (.fail _) ?_
  split
  · exact .mapError (Template.render_keeps calls _ _)
  · exact .mapError (Template.render_keeps calls _ _)
  · exact .pure _

theorem Binding.bindArguments_keeps (calls : ∀ name args, Action.Keeps R s (Helper.call name args))
    (d : Directive) : ∀ (as : List Argument) (bound : Bindings),
      Action.Keeps R s (bindArguments d bound as)
  | [], _ => .pure _
  | a :: as, _ =>
    .bind (argumentValue_keeps calls d a) fun _ => bindArguments_keeps calls d as _

theorem Binding.bind_keeps (calls : ∀ name args, Action.Keeps R s (Helper.call name args))
    (binding : ∀ w name, R w (w.noted (.binding name))) (r : Rule) (d : Directive) :
    Action.Keeps R s (bind r d) := by
  refine .bind (.record fun w => binding w _) fun _ => ?_
  split
  · exact bindArguments_keeps calls d r.arguments _
  · exact .fail _

theorem Condition.holds_keeps_from (calls : ∀ name args, Action.Keeps R s (Helper.call name args))
    {expression : String} {w : World} (checking : R w (w.noted (.checking expression)))
    (scope : Bindings) : R w ((holds expression scope).run s w).2 := by
  refine Action.Keeps.bind_from checking fun _ w₁ _ => ?_
  refine Action.Keeps.bind (.mapError (evaluate_keeps calls _ _)) (fun v => ?_) w₁
  split
  · exact .pure _
  · exact .fail _

theorem Condition.holds_keeps (calls : ∀ name args, Action.Keeps R s (Helper.call name args))
    (checking : ∀ w expression, R w (w.noted (.checking expression))) (expression : String)
    (scope : Bindings) : Action.Keeps R s (holds expression scope) :=
  fun w => holds_keeps_from calls (checking w expression) scope

theorem Condition.allows_keeps (calls : ∀ name args, Action.Keeps R s (Helper.call name args))
    (checking : ∀ w expression, R w (w.noted (.checking expression))) (scope : Bindings) :
    ∀ c : Conditional, Action.Keeps R s (allows scope c)
  | .onlyIf e => holds_keeps calls checking e scope
  | .unless e => .bind (holds_keeps calls checking e scope) fun _ => .pure _
  | .none | .while _ | .until _ => .pure true

theorem Condition.repeats_keeps_from
    (calls : ∀ name args, Action.Keeps R s (Helper.call name args)) {w : World}
    (checking : ∀ expression, R w (w.noted (.checking expression))) (scope : Bindings) :
    ∀ c : Conditional, R w ((repeats scope c).run s w).2
  | .while e => holds_keeps_from calls (checking e) scope
  | .until e => Action.Keeps.bind_from (holds_keeps_from calls (checking e) scope) fun _ w₁ _ =>
    refl_of R w₁
  | .none | .onlyIf _ | .unless _ => refl_of R w

theorem Condition.repeats_keeps (calls : ∀ name args, Action.Keeps R s (Helper.call name args))
    (checking : ∀ w expression, R w (w.noted (.checking expression))) (scope : Bindings)
    (c : Conditional) : Action.Keeps R s (repeats scope c) :=
  fun w => repeats_keeps_from calls (checking w) scope c

end Keeps

/-! ## Projects at the root -/

/-- The files of a project that lies at the root, by their names and texts. -/
def FileTree.ofTexts (texts : List (String × String)) : FileTree :=
  texts.foldl (fun t (name, text) => t.put [name] (.file (Text.Utf8.encode text))) .empty

/-- A document of a project that lies at the root. -/
def ProjectFile.ofName (name : String) : ProjectFile :=
  ⟨⟨"/" ++ name⟩, (FileType.compile? "tex" FileType.texPattern).getD ⟨"tex", ⟨"", .empty⟩⟩⟩

/-- The setting for a document of a project that lies at the root with its rules. Processes leave
everything as it is and end well. -/
def Setting.ofDocument (name : String) (haltOnErrors : Bool) : Setting where
  options := { haltOnErrors, rulePaths := [⟨"/"⟩], workingDirectory := ⟨"/"⟩ }
  file := .ofName name
  host := { environment := [], launch := fun _ files => { ending := .exited 0, files } }

namespace Execution

variable {s : Setting} {r : Rule}

/-! ## The status of the commands -/

/-- The status after some events if it was `st` before: bad as soon as a command of the rule fails. -/
def statusAfter (r : Rule) (st : Status) (events : List Event) : Status :=
  if events.any (Event.failsCommand r) then .externalCallFailed else st

theorem statusAfter_append (r : Rule) (st : Status) (es es' : List Event) :
    statusAfter r st (es ++ es') = statusAfter r (statusAfter r st es) es' := by
  cases h : es.any (Event.failsCommand r) <;> simp [statusAfter, h]

/-- The directive went on from the status `before` to the status `st` by some events. -/
structure Tally (s : Setting) (r : Rule) (before : Status) (events : List Event) (st : Status) :
    Prop where
  /-- The status is that of the commands. -/
  status : st = statusAfter r before events
  /-- If files are halted on errors, no command has failed. -/
  spared : s.options.haltOnErrors = true → events.any (Event.failsCommand r) = false
  /-- If an entry has failed, its command has. -/
  entries : events.any Event.failsEntry = events.any (Event.failsCommand r)

/-- The directive came from the status `before` to its end with the status `st` by some events, which
lead to `w'`. -/
structure Accounts (s : Setting) (r : Rule) (before : Status) (events : List Event) (w' : World)
    (st : Status) : Prop where
  /-- In a halted file the status is that of the halt. -/
  halted (code : Int64) : w'.session.haltCode? s.file.path = some code → st = .ofHaltCode code
  /-- Otherwise it is that of the commands. -/
  running : w'.session.haltCode? s.file.path = none → st = statusAfter r before events
  /-- If files are halted on errors, a command that has failed decides on the status. -/
  failed : s.options.haltOnErrors = true → events.any (Event.failsCommand r) = true →
    st = .externalCallFailed
  /-- If an entry has failed, its command has. -/
  entries : events.any Event.failsEntry = events.any (Event.failsCommand r)

namespace Tally

variable {before st st' : Status} {es es' : List Event} {w' : World}

/-- Silent events leave the status as it is. -/
theorem of_silent (h : ∀ e ∈ es, e.isSilent = true) : Tally s r st es st := by
  have commands := any_eq_false_of h fun _ silent => Event.failsCommand_of_isSilent silent r
  have entries := any_eq_false_of h fun _ => Event.failsEntry_of_isSilent
  exact ⟨by simp [statusAfter, commands], fun _ => commands, entries.trans commands.symm⟩

theorem trans (h : Tally s r before es st) (h' : Tally s r st es' st') :
    Tally s r before (es ++ es') st' where
  status := by rw [h'.status, h.status, statusAfter_append]
  spared on := by simp [h.spared on, h'.spared on]
  entries := by rw [List.any_append, List.any_append, h.entries, h'.entries]

/-- The directive may end with the status it has if the file is not halted. -/
theorem accounts (h : Tally s r before es st) (running : w'.session.haltCode? s.file.path = none) :
    Accounts s r before es w' st where
  halted code halted := by simp [running] at halted
  running _ := h.status
  failed on failed := by simp [h.spared on] at failed
  entries := h.entries

/-- The directive ends with the status of the halt if the file is halted. -/
theorem accounts_halted (h : Tally s r before es st) {code : Int64}
    (halted : w'.session.haltCode? s.file.path = some code) :
    Accounts s r before es w' (.ofHaltCode code) where
  halted code' halted' := by
    rw [halted] at halted'
    cases halted'
    rfl
  running running := by simp [running] at halted
  failed on failed := by simp [h.spared on] at failed
  entries := h.entries

/-- What accounts for the end of the rest of a directive accounts for all of it. -/
theorem accounts_append (h : Tally s r before es st) (h' : Accounts s r st es' w' st') :
    Accounts s r before (es ++ es') w' st' where
  halted := h'.halted
  running running := by rw [h'.running running, h.status, statusAfter_append]
  failed on failed := h'.failed on (by simpa [h.spared on] using failed)
  entries := by rw [List.any_append, List.any_append, h.entries, h'.entries]

end Tally

/-- What is known of a directive that has come from the status `before` to some progress. -/
def Progress.Accounts (s : Setting) (r : Rule) (before : Status) (w w' : World) : Progress → Prop
  | .goesOn st =>
    ∃ events, w.Leads events w' ∧ Tally s r before events st ∧
      w'.session.haltCode? s.file.path = none
  | .ended st => ∃ events, w.Leads events w' ∧ Execution.Accounts s r before events w' st

/-! ## The steps of a directive -/

variable {before st : Status} {w w₁ w' : World} {es : List Event}

/-- What is known of the rest of a directive is known of all of it. -/
theorem Progress.Accounts.after {p : Progress} (h : p.Accounts s r st w₁ w')
    (lead : w.Leads es w₁) (tally : Tally s r before es st) : p.Accounts s r before w w' := by
  cases p with
  | goesOn st' =>
    obtain ⟨es', lead', tally', running⟩ := h
    exact ⟨_, lead.trans lead', tally.trans tally', running⟩
  | ended st' =>
    obtain ⟨es', lead', ended⟩ := h
    exact ⟨_, lead.trans lead', tally.accounts_append ended⟩

theorem call_silent (name : String) (args : List Value) :
    Action.Keeps (World.Does (Event.isSilent ·)) s (Helper.call name args) :=
  (Helper.call_keeps name args).mono fun _ _ does =>
    does.mono fun _ => Event.isSilent_of_byExpression

/-- Neither binding arguments nor asking a condition judges anything. -/
theorem bind_silent (r : Rule) (d : Directive) :
    Action.Keeps (World.Does (Event.isSilent ·)) s (Binding.bind r d) :=
  Binding.bind_keeps call_silent (fun _ _ => .noted rfl nofun) r d

theorem allows_silent (scope : Bindings) (c : Conditional) :
    Action.Keeps (World.Does (Event.isSilent ·)) s (Condition.allows scope c) :=
  Condition.allows_keeps call_silent (fun _ _ => .noted rfl nofun) scope c

theorem repeats_silent (scope : Bindings) (c : Conditional) :
    Action.Keeps (World.Does (Event.isSilent ·)) s (Condition.repeats scope c) :=
  Condition.repeats_keeps call_silent (fun _ _ => .noted rfl nofun) scope c

theorem run_stopped? (s : Setting) (w : World) :
    stopped?.run s w =
      match w.session.haltCode? s.file.path with
      | none => (.ok none, w)
      | some code => (.ok (some (.ofHaltCode code)), w.noted (.shown (.halted code))) := by
  rw [stopped?, Action.run_haltCode?_bind]
  cases w.session.haltCode? s.file.path <;> rfl

/-- A directive that looks for a halt goes on in the same world, or ends with the status of the
halt. -/
theorem stopped?_bind_cases {α : Type} {f : Option Status → Action RunError α}
    {x : Except RunError α} (h : (stopped? >>= f).run s w = (x, w')) :
    (w.session.haltCode? s.file.path = none ∧ (f none).run s w = (x, w')) ∨
      ∃ code, w.session.haltCode? s.file.path = some code ∧
        (f (some (.ofHaltCode code))).run s (w.noted (.shown (.halted code))) = (x, w') := by
  rw [Action.run_bind, run_stopped?] at h
  cases code? : w.session.haltCode? s.file.path with
  | none =>
    rw [code?] at h
    exact .inl ⟨rfl, h⟩
  | some code =>
    rw [code?] at h
    exact .inr ⟨code, rfl, h⟩

/-- A directive that looks for a halt ends with its status if there is one. -/
theorem stopped?_accounts {x : Option Status} (lead : w.Leads es w₁) (tally : Tally s r before es st)
    (h : stopped?.run s w₁ = (.ok x, w')) :
    (x = none ∧ w' = w₁ ∧ w₁.session.haltCode? s.file.path = none) ∨
      ∃ terminal, x = some terminal ∧
        ∃ events, w.Leads events w' ∧ Accounts s r before events w' terminal := by
  rw [run_stopped?] at h
  split at h
  · next running =>
    cases h
    exact .inl ⟨rfl, rfl, running⟩
  · next code halted =>
    cases h
    have shown : Tally s r st [.shown (.halted code)] st := .of_silent (by simp [Event.isSilent])
    exact .inr ⟨_, rfl, _, lead.trans (w₁.leads_noted _ nofun),
      (tally.trans shown).accounts_halted halted⟩

theorem progress_accounts {p : Progress} (lead : w.Leads es w₁) (tally : Tally s r before es st)
    (h : (progress st).run s w₁ = (.ok p, w')) : p.Accounts s r before w w' := by
  rw [progress] at h
  obtain ⟨x, w₂, looked, yields⟩ := Action.run_bind_ok h
  rcases stopped?_accounts lead tally looked with ⟨rfl, rfl, running⟩ | ⟨terminal, rfl, ended⟩
  · cases yields
    exact ⟨es, lead, tally, running⟩
  · cases yields
    exact ended

/-- A command fails if one of its entries has. -/
theorem finished_entries {file : Path} {command : RuleCommand} {success : Bool}
    (hc : command ∈ r.commands) (hes : ∀ e ∈ es, e.byCommand file)
    (hb : success = !es.any Event.failsEntry) :
    (es ++ [Event.finished command success]).any Event.failsEntry =
      (es ++ [Event.finished command success]).any (Event.failsCommand r) := by
  have quiet := any_eq_false_of hes fun _ h => Event.failsCommand_of_byCommand h r
  simp [quiet, Event.failsCommand, Event.failsEntry, hc, hb]

/-- A command that ends is entered into the tally, unless its failure halts the file. -/
theorem tally_finished {file : Path} {command : RuleCommand} {success : Bool}
    (hc : command ∈ r.commands) (hes : ∀ e ∈ es, e.byCommand file)
    (hb : success = !es.any Event.failsEntry)
    (spared : success = true ∨ s.options.haltOnErrors = false) :
    Tally s r before (es ++ [.finished command success])
      (if success then before else .externalCallFailed) where
  status := by
    have quiet := any_eq_false_of hes fun _ h => Event.failsCommand_of_byCommand h r
    cases success <;> simp [statusAfter, quiet, Event.failsCommand, hc]
  spared on := by
    have succeeded : success = true := by simpa [on] using spared
    have passed : es.any Event.failsEntry = false := by simpa [succeeded] using hb
    rw [← finished_entries hc hes hb, List.any_append, passed, succeeded]
    rfl
  entries := finished_entries hc hes hb

/-- A directive whose failure halts the file ends as failed, which is the status of that halt. -/
theorem haltAfterFailure_accounts {p : Progress} (lead : w.Leads es w₁)
    (entries : es.any Event.failsEntry = es.any (Event.failsCommand r))
    (h : haltAfterFailure.run s w₁ = (.ok p, w')) : p.Accounts s r before w w' := by
  -- the file is halted with the exit code of the status the directive ends with, so that both agree
  cases h
  have lead' := lead.trans (w₁.leads_halt s.file.path (Int64.ofNat Status.externalCallFailed.exitCode))
  have halted := Session.haltCode?_halt_self w₁.session s.file.path
    (Int64.ofNat Status.externalCallFailed.exitCode)
  refine ⟨_, lead', ?_, ?_, fun _ _ => rfl, ?_⟩
  · intro code halted'
    rw [halted] at halted'
    cases halted'
    rfl
  · intro running
    rw [halted] at running
    cases running
  · simp [entries, Event.failsEntry, Event.failsCommand]

theorem runCommand_accounts {conditional : Conditional} {scope : Bindings} {command : RuleCommand}
    {p : Progress} (hc : command ∈ r.commands)
    (h : (runCommand r conditional scope before command).run s w = (.ok p, w')) :
    p.Accounts s r before w w' := by
  obtain ⟨success, w₁, ran, h⟩ := Action.run_bind_ok h
  obtain ⟨es, lead, hes⟩ := (Command.run_does _ scope).of_run ran
  obtain ⟨es', lead', hb⟩ := Command.run_success ran
  -- both lemmas speak of the same events, since the journal determines them
  obtain rfl := lead.unique lead'
  have finished := lead.trans (w₁.leads_noted (.finished command success) nofun)
  rw [Action.run_record_bind, Action.run_setting_bind] at h
  split at h
  · next succeeded =>
    subst succeeded
    exact progress_accounts finished (tally_finished hc hes hb (by simp)) h
  · next failed =>
    obtain rfl : success = false := by simpa using failed
    split at h
    · next on =>
      exact haltAfterFailure_accounts finished (finished_entries hc hes hb) h
    · next off =>
      exact progress_accounts finished (tally_finished hc hes hb (by simp [off])) h

theorem runCommands_accounts {conditional : Conditional} {scope : Bindings} {p : Progress} :
    ∀ {commands : List RuleCommand} {before : Status} {w : World},
      (∀ c ∈ commands, c ∈ r.commands) → w.session.haltCode? s.file.path = none →
      (runCommands r conditional scope before commands).run s w = (.ok p, w') →
      p.Accounts s r before w w'
  | [], before, w, _, running, h => by
    -- without any command, that the file is not halted is what was known before
    cases h
    exact ⟨[], .refl _, .of_silent (by simp), running⟩
  | command :: rest, before, w, sub, _, h => by
    obtain ⟨p₁, w₁, ran, others⟩ := Action.run_bind_ok h
    have first := runCommand_accounts (sub command List.mem_cons_self) ran
    cases p₁ with
    | ended terminal =>
      cases others
      exact first
    | goesOn st =>
      obtain ⟨es, lead, tally, running⟩ := first
      have sub' : ∀ c ∈ rest, c ∈ r.commands := fun c hc => sub c (List.mem_cons_of_mem _ hc)
      exact (runCommands_accounts sub' running others).after lead tally

theorem round_accounts {d : Directive} {scope : Bindings} {number : UInt32} {p : Progress}
    (running : w.session.haltCode? s.file.path = none)
    (h : (round r d scope number before).run s w = (.ok p, w')) : p.Accounts s r before w w' := by
  have begun := w.leads_noted (.round number) nofun
  have tally : Tally s r before [.round number] before := .of_silent (by simp [Event.isSilent])
  rw [round, Action.run_record_bind] at h
  obtain ⟨p₁, w₁, ran, h⟩ := Action.run_bind_ok h
  have ended : p₁.Accounts s r before (w.noted (.round number)) w₁ :=
    runCommands_accounts (fun _ hc => hc) running ran
  have first := ended.after begun tally
  cases p₁ with
  | ended terminal =>
    cases h
    exact first
  | goesOn st =>
    obtain ⟨es, lead, tally, _⟩ := first
    -- the condition may halt the file, which is looked at before its answer
    obtain ⟨again, w₂, asked, h⟩ := Action.run_bind_ok h
    obtain ⟨es', lead', silent⟩ := (repeats_silent scope d.conditional).of_run asked
    obtain ⟨x, w₃, looked, yields⟩ := Action.run_bind_ok h
    have tally' := tally.trans (.of_silent silent)
    rcases stopped?_accounts (lead.trans lead') tally' looked with
      ⟨rfl, rfl, running'⟩ | ⟨terminal, rfl, ended⟩
    · cases again with
      | true =>
        cases yields
        exact ⟨_, lead.trans lead', tally', running'⟩
      | false =>
        cases yields
        exact ⟨_, lead.trans lead', tally'.accounts running'⟩
    · cases yields
      exact ended

theorem rounds_accounts {d : Directive} {scope : Bindings} {left : Nat} :
    ∀ {number : UInt32} {before : Status} {w : World},
      w.session.haltCode? s.file.path = none →
      (rounds r d scope number before left).run s w = (.ok st, w') →
      ∃ events, w.Leads events w' ∧ Accounts s r before events w' st := by
  -- the status is carried from round to round, so the induction is for every status, and the world of
  -- each round is one in which the file is not halted
  induction left with
  | zero =>
    intro number before w running h
    rw [rounds] at h
    obtain ⟨p, w₁, ran, h⟩ := Action.run_bind_ok h
    cases p with
    | ended terminal =>
      cases h
      exact round_accounts running ran
    | goesOn st₁ => cases h
  | succ left ih =>
    intro number before w running h
    rw [rounds] at h
    obtain ⟨p, w₁, ran, h⟩ := Action.run_bind_ok h
    cases p with
    | ended terminal =>
      cases h
      exact round_accounts running ran
    | goesOn st₁ =>
      obtain ⟨es, lead, tally, running'⟩ := round_accounts running ran
      obtain ⟨es', lead', ended⟩ := ih running' h
      exact ⟨_, lead.trans lead', tally.accounts_append ended⟩

theorem executeRule_accounts {d : Directive}
    (h : (executeRule r d).run s w = (.ok st, w')) :
    ∃ events, w.Leads events w' ∧ Accounts s r .processing events w' st := by
  obtain ⟨scope, w₁, bound, h⟩ := Action.run_bind_ok h
  obtain ⟨es, lead, silent⟩ := (bind_silent r d).of_run bound
  obtain ⟨allowed, w₂, asked, h⟩ := Action.run_bind_ok h
  obtain ⟨es', lead', silent'⟩ := (allows_silent scope d.conditional).of_run asked
  have begun := lead.trans lead'
  have tally : Tally s r .processing _ .processing :=
    (Tally.of_silent silent).trans (.of_silent silent')
  obtain ⟨x, w₃, looked, yields⟩ := Action.run_bind_ok h
  rcases stopped?_accounts begun tally looked with ⟨rfl, rfl, running⟩ | ⟨terminal, rfl, ended⟩
  · cases allowed with
    | false =>
      cases yields
      exact ⟨_, begun, tally.accounts running⟩
    | true =>
      obtain ⟨es'', lead'', ended⟩ := rounds_accounts running yields
      exact ⟨_, begun.trans lead'', tally.accounts_append ended⟩
  · cases yields
    exact ended

/-- What a directive that ends with a status has done: nothing in a halted file, and otherwise what its
rule says. -/
theorem execute_ok_cases {d : Directive} (h : (execute d).run s w = (.ok st, w')) :
    (∃ code, w.session.haltCode? s.file.path = some code ∧ w' = w ∧ st = .ofHaltCode code) ∨
      (w.session.haltCode? s.file.path = none ∧ ∃ ruleFile r,
        Rule.resolve w.files d.identifier s.options.rulePaths = .ok ruleFile ∧
        Rule.load w.files ruleFile d.identifier = .ok r ∧
        (executeRule r d).run s (w.noted (.executing s.file.path d.identifier)) = (.ok st, w')) := by
  rw [execute, Action.run_haltCode?_bind] at h
  split at h
  · next code halted =>
    cases h
    exact .inl ⟨code, halted, rfl, rfl⟩
  · next running =>
    rw [Action.run_setting_bind, Action.run_record_bind, Action.run_world_bind] at h
    obtain ⟨ruleFile, found, h⟩ := Action.run_ofExcept_bind_ok h
    rcases Action.run_mapError_cases h with ⟨_, _, impossible⟩ | ⟨st', executed, hst⟩
    · cases impossible
    cases hst
    rw [executeFrom, Action.run_world_bind] at executed
    obtain ⟨r, read, executed⟩ := Action.run_ofExcept_bind_ok executed
    exact .inr ⟨running, ruleFile, r, found, read, executed⟩

/-- What accounts for the end of a directive that was executed in a file not halted before. -/
theorem execute_accounts {d : Directive} (h : (execute d).run s w = (.ok st, w'))
    (running : w.session.haltCode? s.file.path = none) :
    ∃ ruleFile r events, Rule.resolve w.files d.identifier s.options.rulePaths = .ok ruleFile ∧
      Rule.load w.files ruleFile d.identifier = .ok r ∧ w.Leads events w' ∧
      Accounts s r .processing events w' st := by
  rcases execute_ok_cases h with ⟨code, halted, _⟩ | ⟨_, ruleFile, r, found, read, executed⟩
  · rw [halted] at running
    cases running
  obtain ⟨events, lead, ended⟩ := executeRule_accounts executed
  have begun := w.leads_noted (.executing s.file.path d.identifier) nofun
  have tally : Tally s r .processing [.executing s.file.path d.identifier] .processing :=
    .of_silent (by simp [Event.isSilent])
  exact ⟨ruleFile, r, _, found, read, begun.trans lead, tally.accounts_append ended⟩

theorem statusAfter_processing_cases (r : Rule) (events : List Event) :
    (statusAfter r .processing events = .externalCallFailed ∧
        ∃ c ∈ r.commands, .finished c false ∈ events) ∨
      (statusAfter r .processing events = .processing ∧
        ¬∃ c ∈ r.commands, .finished c false ∈ events) := by
  have failed : events.any (Event.failsCommand r) = true ↔
      ∃ c ∈ r.commands, .finished c false ∈ events := by
    rw [List.any_eq_true]
    constructor
    · rintro ⟨e, he, fails⟩
      cases e with
      | finished c success =>
        obtain ⟨hc, rfl⟩ : c ∈ r.commands ∧ success = false := by
          simpa [Event.failsCommand] using fails
        exact ⟨c, hc, he⟩
      | _ => cases fails
    · rintro ⟨c, hc, he⟩
      exact ⟨_, he, by simp [Event.failsCommand, hc]⟩
  by_cases any : events.any (Event.failsCommand r) = true
  · exact .inl ⟨by rw [statusAfter, if_pos any], failed.mp any⟩
  · exact .inr ⟨by rw [statusAfter, if_neg any], fun c => any (failed.mpr c)⟩

/-- In a file that is halted afterwards, the status of a directive is that of the halt. -/
theorem execute_halted {d : Directive} {code : Int64} (h : (execute d).run s w = (.ok st, w'))
    (halted : w'.session.haltCode? s.file.path = some code) : st = .ofHaltCode code := by
  rcases hw : w.session.haltCode? s.file.path with _ | code'
  · obtain ⟨_, _, _, _, _, _, ended⟩ := execute_accounts h hw
    exact ended.halted code halted
  · rw [execute_of_halted hw] at h
    cases h
    rw [hw] at halted
    cases halted
    rfl

/-- In a file that is not halted afterwards, a directive has failed exactly if one of the commands of
its rule has. -/
theorem execute_running {d : Directive} (h : (execute d).run s w = (.ok st, w'))
    (running : w'.session.haltCode? s.file.path = none) :
    ∃ ruleFile r events, Rule.resolve w.files d.identifier s.options.rulePaths = .ok ruleFile ∧
      Rule.load w.files ruleFile d.identifier = .ok r ∧ w.Leads events w' ∧
      ((st = .externalCallFailed ∧ ∃ c ∈ r.commands, .finished c false ∈ events) ∨
        (st = .processing ∧ ¬∃ c ∈ r.commands, .finished c false ∈ events)) := by
  rcases hw : w.session.haltCode? s.file.path with _ | code
  · obtain ⟨ruleFile, r, events, found, read, lead, ended⟩ := execute_accounts h hw
    refine ⟨ruleFile, r, events, found, read, lead, ?_⟩
    rw [ended.running running]
    exact statusAfter_processing_cases r events
  · rw [execute_of_halted hw] at h
    cases h
    rw [hw] at running
    cases running

/-- **The status of a directive.** A directive that is executed without an error never has the status of
a caught one. If the file is halted afterwards, however that came about, the status is that of the halt
code. Otherwise the directive had a rule, and it has failed exactly if a command of the rule has failed
at some point of the execution. -/
theorem execute_status {d : Directive} (h : (execute d).run s w = (.ok st, w')) :
    st ≠ .caughtException ∧
      (∀ code, w'.session.haltCode? s.file.path = some code → st = .ofHaltCode code) ∧
      (w'.session.haltCode? s.file.path = none →
        ∃ (ruleFile : Path) (r : Rule) (events : List Event),
          Rule.resolve w.files d.identifier s.options.rulePaths = .ok ruleFile ∧
          Rule.load w.files ruleFile d.identifier = .ok r ∧
          w'.journal = events.reverse ++ w.journal ∧
          (st = .externalCallFailed ↔ ∃ c ∈ r.commands, .finished c false ∈ events) ∧
          (st = .processing ↔ ¬∃ c ∈ r.commands, .finished c false ∈ events)) := by
  refine ⟨?_, fun code => execute_halted h, fun running => ?_⟩
  · rcases hw : w'.session.haltCode? s.file.path with _ | code
    · obtain ⟨_, _, _, _, _, _, ⟨rfl, _⟩ | ⟨rfl, _⟩⟩ := execute_running h hw <;> simp
    · rw [execute_halted h hw]
      exact Status.ofHaltCode_ne_caughtException code
  · obtain ⟨ruleFile, r, events, found, read, lead, status⟩ := execute_running h running
    refine ⟨ruleFile, r, events, found, read, lead.journal, ?_⟩
    rcases status with ⟨rfl, fails⟩ | ⟨rfl, passes⟩
    · simp [fails]
    · simp [passes]

/-- A world in which the only command of a rule fails. -/
def failingCheck : World where
  files := .ofTexts
    [("check.yaml", "identifier: check\ncommands:\n- command: '@\x7b false \x7d'\n")]

/-- A directive whose command fails in a file that goes on has failed. -/
theorem execute_status_failingCheck :
    ∃ w', (execute { identifier := "check" }).run (.ofDocument "doc.tex" false) failingCheck =
        (.ok .externalCallFailed, w') ∧
      w'.session.haltCode? ⟨"/doc.tex"⟩ = none ∧ ∃ c, .finished c false ∈ w'.journal := by
  have run := Action.run_eq_ok (a := execute { identifier := "check" }) (w := failingCheck)
    (s := .ofDocument "doc.tex" false) (x := .externalCallFailed) (by decide +kernel)
  refine ⟨_, run, by decide +kernel, ?_⟩
  obtain ⟨_, _, running⟩ := execute_status run
  obtain ⟨_, r, events, _, _, journal, failed, _⟩ := running (by decide +kernel)
  obtain ⟨c, _, fails⟩ := failed.mp rfl
  exact ⟨c, by rw [journal]; simp [fails]⟩

/-! ## Relations that directives keep -/

/-- What is asked of a relation for the rounds of a directive to keep it, where `P` tells the halt codes
with which they are begun, none among them. -/
structure KeptByRounds (P : Option Int64 → Prop) (R : World → World → Prop) (s : Setting) : Prop where
  /-- A file that is not halted has rounds. -/
  running : P none
  calls (name : String) (args : List Value) : Action.Keeps R s (Helper.call name args)
  /-- A halt may be shown. -/
  stopped (w : World) (code : Int64) : R w (w.noted (.shown (.halted code)))
  /-- A command may be finished. -/
  finished (w : World) (command : RuleCommand) (success : Bool) :
    R w (w.noted (.finished command success))
  /-- A failure may halt the file. -/
  halted : Action.Keeps R s (Action.halt (Int64.ofNat Status.externalCallFailed.exitCode) :
    Action RunError Unit)
  /-- A round may begin. -/
  begun (w : World) (number : UInt32) :
    P (w.session.haltCode? s.file.path) → R w (w.noted (.round number))
  /-- The condition of the loop may be asked. -/
  asked (w : World) (expression : String) :
    P (w.session.haltCode? s.file.path) → R w (w.noted (.checking expression))
  /-- A command may be run. -/
  ran (j : Command.Job) (scope : Bindings) (w : World) :
    P (w.session.haltCode? s.file.path) → R w ((Command.run j scope).run s w).2

/-- What is asked of a relation for directives to keep it. -/
structure KeptByDirectives (R : World → World → Prop) (s : Setting) : Prop where
  calls (name : String) (args : List Value) : Action.Keeps R s (Helper.call name args)
  /-- The directive may write down how it goes on. -/
  noted (w : World) (e : Event) : e.isProgress → R w (w.noted e)
  /-- A failure may halt the file. -/
  halted : Action.Keeps R s (Action.halt (Int64.ofNat Status.externalCallFailed.exitCode) :
    Action RunError Unit)
  /-- While the file is not halted, a command may be run. -/
  ran (j : Command.Job) (scope : Bindings) (w : World) :
    w.session.haltCode? s.file.path = none → R w ((Command.run j scope).run s w).2

theorem KeptByDirectives.mono {R R' : World → World → Prop} (h : KeptByDirectives R s)
    (sub : ∀ w w', R w w' → R' w w') : KeptByDirectives R' s where
  calls name args := (h.calls name args).mono sub
  noted w e he := sub _ _ (h.noted w e he)
  halted := h.halted.mono sub
  ran j scope w running := sub _ _ (h.ran j scope w running)

theorem KeptByDirectives.rounds {R : World → World → Prop} (h : KeptByDirectives R s) :
    KeptByRounds (· = none) R s where
  running := rfl
  calls := h.calls
  stopped w _ := h.noted w _ trivial
  finished w _ _ := h.noted w _ trivial
  halted := h.halted
  begun w _ _ := h.noted w _ trivial
  asked w _ _ := h.noted w _ trivial
  ran := h.ran

/-- A directive goes on only if the file is not halted. -/
theorem progress_goesOn {st' : Status} (h : (progress st).run s w = (.ok (.goesOn st'), w')) :
    w'.session.haltCode? s.file.path = none := by
  rw [progress] at h
  rcases stopped?_bind_cases h with ⟨running, goes⟩ | ⟨code, _, ends⟩
  · cases goes
    exact running
  · cases ends

theorem runCommand_goesOn {conditional : Conditional} {scope : Bindings} {command : RuleCommand}
    {st' : Status}
    (h : (runCommand r conditional scope st command).run s w = (.ok (.goesOn st'), w')) :
    w'.session.haltCode? s.file.path = none := by
  obtain ⟨success, w₁, _, h⟩ := Action.run_bind_ok h
  rw [Action.run_record_bind, Action.run_setting_bind] at h
  split at h
  · exact progress_goesOn h
  · split at h
    · cases h
    · exact progress_goesOn h

theorem round_goesOn {d : Directive} {scope : Bindings} {number : UInt32} {st' : Status}
    (h : (round r d scope number st).run s w = (.ok (.goesOn st'), w')) :
    w'.session.haltCode? s.file.path = none := by
  rw [round, Action.run_record_bind] at h
  obtain ⟨p, w₁, _, h⟩ := Action.run_bind_ok h
  cases p with
  | ended terminal => cases h
  | goesOn st₁ =>
    obtain ⟨again, w₂, _, h⟩ := Action.run_bind_ok h
    rcases stopped?_bind_cases h with ⟨running, h⟩ | ⟨code, _, h⟩
    · cases again with
      | true => cases h; exact running
      | false => cases h
    · cases h

section Keeps

variable {P : Option Int64 → Prop} {R : World → World → Prop} [IsPreorder World R]

theorem stopped?_keeps (h : KeptByRounds P R s) : Action.Keeps R s stopped? := by
  refine .bind .haltCode? fun code => ?_
  split
  · exact .pure _
  · exact .bind (.record fun w => h.stopped w _) fun _ => .pure _

theorem progress_keeps (h : KeptByRounds P R s) (st : Status) :
    Action.Keeps R s (progress st) := by
  refine .bind (stopped?_keeps h) fun x => ?_
  split <;> exact .pure _

theorem runCommand_keeps (h : KeptByRounds P R s) (start : P (w.session.haltCode? s.file.path))
    (r : Rule) (conditional : Conditional) (scope : Bindings) (st : Status)
    (command : RuleCommand) : R w ((runCommand r conditional scope st command).run s w).2 := by
  refine Action.Keeps.bind_from (h.ran _ scope w start) fun success w₁ _ => ?_
  refine Action.Keeps.bind (.record fun w => h.finished w command success) (fun _ => ?_) w₁
  refine .bind_setting <| .ite (progress_keeps h st) <| .ite ?_ (progress_keeps h _)
  exact .bind h.halted fun _ => .pure _

/-- Commands that go on leave a halt code with which the rounds go on. -/
theorem runCommands_goesOn (running : P none) {conditional : Conditional} {scope : Bindings} :
    ∀ {commands : List RuleCommand} {st st' : Status} {w w' : World},
      P (w.session.haltCode? s.file.path) →
      (runCommands r conditional scope st commands).run s w = (.ok (.goesOn st'), w') →
      P (w'.session.haltCode? s.file.path)
  | [], _, _, _, _, start, ran => by
    cases ran
    exact start
  | command :: rest, _, _, _, _, _, ran => by
    obtain ⟨p, w₁, first, others⟩ := Action.run_bind_ok ran
    cases p with
    | ended terminal => cases others
    | goesOn st₁ => exact runCommands_goesOn running (runCommand_goesOn first ▸ running) others

theorem runCommands_keeps (h : KeptByRounds P R s) (r : Rule) (conditional : Conditional)
    (scope : Bindings) :
    ∀ (commands : List RuleCommand) (st : Status) {w : World},
      P (w.session.haltCode? s.file.path) →
      R w ((runCommands r conditional scope st commands).run s w).2
  | [], _, w, _ => refl_of R w
  | command :: rest, st, w, start => by
    have first := runCommand_keeps h start r conditional scope st command
    refine Action.Keeps.bind_from first fun p w₁ ran => ?_
    cases p with
    | ended terminal => exact refl_of R w₁
    | goesOn st₁ =>
      -- a command that goes on leaves a file that is not halted, so that the next one may be run
      have running : P (w₁.session.haltCode? s.file.path) := runCommand_goesOn ran ▸ h.running
      exact runCommands_keeps h r conditional scope rest st₁ running

theorem round_keeps (h : KeptByRounds P R s) (start : P (w.session.haltCode? s.file.path))
    (r : Rule) (d : Directive) (scope : Bindings) (number : UInt32) (st : Status) :
    R w ((round r d scope number st).run s w).2 := by
  refine Action.Keeps.bind_from (h.begun w number start) fun _ w₁ begun => ?_
  obtain rfl : w₁ = w.noted (.round number) := by cases begun; rfl
  have begun : P ((w.noted (.round number)).session.haltCode? s.file.path) := start
  have ran := runCommands_keeps h r d.conditional scope r.commands st begun
  refine Action.Keeps.bind_from ran fun p w₂ ran => ?_
  cases p with
  | ended terminal => exact refl_of R w₂
  | goesOn st₁ =>
    have going := runCommands_goesOn h.running begun ran
    have asked := Condition.repeats_keeps_from h.calls (fun e => h.asked w₂ e going) scope
      d.conditional
    refine Action.Keeps.bind_from asked fun again w₃ _ => ?_
    refine Action.Keeps.bind (stopped?_keeps h) (fun x => ?_) w₃
    split <;> exact .pure _

theorem rounds_keeps (h : KeptByRounds P R s) (r : Rule) (d : Directive) (scope : Bindings)
    (left : Nat) :
    ∀ {number : UInt32} {st : Status} {w : World}, P (w.session.haltCode? s.file.path) →
      R w ((rounds r d scope number st left).run s w).2 := by
  induction left with
  | zero =>
    intro number st w start
    rw [rounds]
    refine Action.Keeps.bind_from (round_keeps h start r d scope number st) fun p w₁ _ => ?_
    cases p <;> exact refl_of R w₁
  | succ left ih =>
    intro number st w start
    rw [rounds]
    refine Action.Keeps.bind_from (round_keeps h start r d scope number st) fun p w₁ ran => ?_
    cases p with
    | ended terminal => exact refl_of R w₁
    | goesOn st₁ => exact ih (round_goesOn ran ▸ h.running)

/-- A rule keeps what its rounds, the binding of its arguments and its guard keep. -/
theorem executeRule_keeps_of (h : KeptByRounds P R s) {d : Directive}
    (binding : ∀ w name, R w (w.noted (.binding name)))
    (guard : ∀ scope, Action.Keeps R s (Condition.allows scope d.conditional)) (r : Rule) :
    Action.Keeps R s (executeRule r d) := by
  refine .bind (Binding.bind_keeps h.calls binding r d) fun scope => ?_
  refine .bind (guard scope) fun allowed w => ?_
  refine Action.Keeps.bind_from (stopped?_keeps h w) fun x w₁ looked => ?_
  rw [run_stopped?] at looked
  split at looked
  · next running =>
    cases looked
    cases allowed with
    | false => exact refl_of R w
    | true => exact rounds_keeps h r d scope _ (running ▸ h.running)
  · cases looked
    exact refl_of R _

theorem executeRule_keeps (h : KeptByDirectives R s) (r : Rule) (d : Directive) :
    Action.Keeps R s (executeRule r d) := by
  apply executeRule_keeps_of h.rounds
  · intro w name
    exact h.noted w _ trivial
  · intro scope
    exact Condition.allows_keeps h.calls (fun w e => h.noted w _ trivial) scope _

/-- A directive keeps what whatever rule it is executed with keeps. -/
theorem execute_keeps_of {d : Directive}
    (executing : ∀ w name, R w (w.noted (.executing s.file.path name)))
    (rules : ∀ r, Action.Keeps R s (executeRule r d)) : Action.Keeps R s (execute d) := by
  refine .bind .haltCode? fun code => ?_
  split
  · exact .pure _
  · refine .bind_setting <| .bind (.record fun w => executing w _) fun _ => ?_
    refine .bind .world fun w => .bind (.ofExcept _) fun ruleFile => .mapError ?_
    exact .bind .world fun w => .bind (.ofExcept _) fun r => rules r

/-- **Directives keep what their parts keep**, if commands do so while the file is not halted. -/
theorem execute_keeps (h : KeptByDirectives R s)
    (executing : ∀ w name, R w (w.noted (.executing s.file.path name))) (d : Directive) :
    Action.Keeps R s (execute d) :=
  execute_keeps_of executing fun r => executeRule_keeps h r d

end Keeps

/-- A preorder of events is kept by directives if they may do what expressions do and write down how
they go on, and if it is kept by commands. -/
theorem keptByDirectives_of {P : Event → Prop}
    (expression : ∀ e : Event, e.byExpression s.file.path → P e)
    (progress : ∀ e : Event, e.isProgress → P e)
    (ran : ∀ j scope, Action.Keeps (World.Does P) s (Command.run j scope)) :
    KeptByDirectives (World.Does P) s where
  calls name args := (Helper.call_keeps name args).mono fun _ _ does => does.mono expression
  noted w e h := .noted (progress e h) fun file c same => by simp [same, Event.isProgress] at h
  halted w := by
    -- the halt after a failure is one that an expression might have asked for
    refine ⟨_, w.leads_halt s.file.path _, fun e mem => ?_⟩
    obtain rfl := List.mem_singleton.mp mem
    exact expression _ rfl
  ran j scope w _ := ran j scope w

/-- What a directive does, apart from beginning, is done by its rule for the current file. -/
theorem keptByDirectives_does : KeptByDirectives (World.Does (Event.byDirective s.file.path)) s := by
  apply keptByDirectives_of
  · intro e
    exact Event.byDirective_of_byExpression
  · intro e progress
    exact Event.byDirective_of_isProgress progress _
  · intro j scope w
    exact (Command.run_does j scope w).mono fun _ => Event.byDirective_of_byCommand

end Execution

end DirectiveRunner
