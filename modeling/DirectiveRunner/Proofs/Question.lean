import DirectiveRunner.Proofs.Agreement
/-!
# What the answers of a cache depend on

A cache with a store reads it before every answer, so that what the cache itself remembers should not
matter. It does in one case: a store that does not exist is not read as an empty one, but leaves the
cache as it is. A question is then answered from memory (`Recalled`).

* `outcome_after_iff` — the answer to a question and the files after it are the same after any earlier
  questions exactly if the question is not one that is answered from memory.
* `outcomes_after_failure` — a question without an answer leaves the files alone, and it leaves no
  trace in later outcomes either, as long as these are not answered from memory.

In both the exception is needed: `recalled_afterRemoval` is a store that was removed, and
`recalled_afterFailure` a store that could not be written.
-/

namespace DirectiveRunner

/-- A question to a cache. -/
structure Question where
  /-- The files at the time of the question. -/
  files : FileTree
  path : Path
  /-- Whether it is asked if the file is unchanged, not if it has changed. -/
  negated : Bool := false
deriving Inhabited

namespace Question

/-- The name the file is remembered under. -/
def key (q : Question) : Path := Cache.keyOf q.files q.path

def seen (q : Question) : Except CacheError Observation := Cache.observe q.files q.key

/-- The answer from what was seen before and what is seen now. -/
def answer (q : Question) (o : Observations) (seen : Observation) : Bool :=
  decide (o.last? q.key ≠ some seen) ^^ q.negated

/-- The store cannot be read because it does not exist, but it can be written, and the file can be
looked at. Such a question is answered from memory. -/
def Recalled (store : Path) (q : Question) : Prop :=
  q.files.readText store = .error .notFound ∧ (∃ seen, q.seen = .ok seen) ∧
    ∃ l, q.files.writable store = .ok l

/-- Some question is answered from memory before the store is read for the first time. -/
def Recalls (store : Path) : List Question → Prop
  | [] => False
  | q :: qs =>
    q.Recalled store ∨ (∀ text, q.files.readText store ≠ .ok text) ∧ Recalls store qs

end Question

namespace Cache

open Question (Recalled Recalls)

def inMemory : Cache := {}

/-- A new cache on a store. -/
def onStore (store : Path) : Cache := { store := some store }

def ask (c : Cache) (q : Question) : Except CacheError Bool × Cache × FileTree :=
  if q.negated then c.isUnchanged q.files q.path else c.hasChanged q.files q.path

/-- The answer to a question and the files after it. -/
def outcome (c : Cache) (q : Question) : Except CacheError Bool × FileTree :=
  ((c.ask q).1, (c.ask q).2.2)

def after (c : Cache) (qs : List Question) : Cache := qs.foldl (fun c q => (c.ask q).2.1) c

/-- The outcomes of questions one after the other. -/
def outcomes (c : Cache) : List Question → List (Except CacheError Bool × FileTree)
  | [] => []
  | q :: qs => c.outcome q :: (c.after [q]).outcomes qs

/-- The cache with what was seen of a file. -/
def noted (c : Cache) (key : Path) (seen : Observation) : Cache :=
  { c with observations := c.observations.remember key seen }

variable {c c' : Cache} {q now : Question} {qs later : List Question} {store : Path}

/-! ## Asking -/

/-- What comes of a question when the store was read. -/
def settle (c : Cache) (q : Question) : Except CacheError Bool × Cache × FileTree :=
  match q.seen with
  | .error e => (.error e, c, q.files)
  | .ok seen =>
    let c' := c.noted q.key seen
    match c'.persist q.files with
    | .error e => (.error e, c', q.files)
    | .ok files => (.ok (q.answer c.observations seen), c', files)

theorem ask_eq (c : Cache) (q : Question) : c.ask q =
    match c.reload q.files with
    | .error e => (.error e, c, q.files)
    | .ok c' => c'.settle q := by
  unfold ask isUnchanged hasChanged settle Question.answer Question.seen Question.key noted
  cases c.reload q.files with
  | error e => cases q.negated <;> rfl
  | ok c' =>
    dsimp only
    cases observe q.files (keyOf q.files q.path) with
    | error e => cases q.negated <;> rfl
    | ok seen =>
      dsimp only
      cases persist _ q.files with
      | error e => cases q.negated <;> rfl
      | ok files => cases q.negated <;> simp [Except.map]

theorem reload_store (h : c.reload q.files = .ok c') : c'.store = c.store := by
  unfold reload at h
  split at h
  · rw [Except.ok.inj h]
  · split at h
    · rw [← Except.ok.inj h]
    · rw [Except.ok.inj h]
    · cases h

theorem settle_store (c : Cache) (q : Question) : (c.settle q).2.1.store = c.store := by
  unfold settle
  cases q.seen with
  | error e => rfl
  | ok seen =>
    dsimp only
    cases (c.noted q.key seen).persist q.files <;> rfl

/-- A question does not change where a cache keeps its observations. -/
theorem ask_store (c : Cache) (q : Question) : (c.ask q).2.1.store = c.store := by
  rw [ask_eq]
  cases reloaded : c.reload q.files with
  | error e => rfl
  | ok c' => exact (settle_store c' q).trans (reload_store reloaded)

theorem after_store (c : Cache) (qs : List Question) : (c.after qs).store = c.store := by
  induction qs generalizing c with
  | nil => rfl
  | cons q qs ih => exact (ih _).trans (ask_store c q)

theorem after_append (c : Cache) (qs later : List Question) :
    c.after (qs ++ later) = (c.after qs).after later := List.foldl_append

theorem outcomes_append (c : Cache) (qs later : List Question) :
    c.outcomes (qs ++ later) = c.outcomes qs ++ (c.after qs).outcomes later := by
  induction qs generalizing c with
  | nil => rfl
  | cons q qs ih =>
    rw [List.cons_append, outcomes, outcomes, ih, List.cons_append]
    rfl

/-! ## Stores -/

theorem reload_of_read (h : c.store = some store) {files : FileTree} {text : String}
    (read : files.readText store = .ok text) :
    c.reload files = .ok { store := some store, observations := .read text.toList } := by
  simp only [reload, h, read]

theorem reload_of_missing (h : c.store = some store) {files : FileTree}
    (missing : files.readText store = .error .notFound) : c.reload files = .ok c := by
  simp only [reload, h, missing]

theorem reload_of_unreadable (h : c.store = some store) {files : FileTree} {e : FileFailure}
    (read : files.readText store = .error e) (other : e ≠ .notFound) :
    c.reload files = .error (.readStore store e) := by
  simp only [reload, h, read]

theorem reload_of_none (h : c.store = none) (files : FileTree) : c.reload files = .ok c := by
  simp only [reload, h]

theorem persist_of_none (h : c.store = none) (files : FileTree) : c.persist files = .ok files := by
  simp only [persist, h]

theorem persist_of_store (h : c.store = some store) (files : FileTree) : c.persist files =
    match files.writable store with
    | .ok l => .ok (files.put l (.file (Text.Utf8.encode (.ofList c.observations.write))))
    | .error e => .error (.writeStore store e) := by
  simp only [persist, h, FileTree.write]
  cases files.writable store <;> rfl

theorem ask_of_memory (h : c.store = none) (q : Question) : c.ask q =
    match q.seen with
    | .error e => (.error e, c, q.files)
    | .ok seen => (.ok (q.answer c.observations seen), c.noted q.key seen, q.files) := by
  rw [ask_eq, reload_of_none h]
  dsimp only [settle]
  cases q.seen with
  | error e => rfl
  | ok seen =>
    dsimp only
    rw [persist_of_none (c := c.noted q.key seen) h]

/-! ## Questions that are answered from the store -/

/-- A store that is read replaces all that a cache remembers. -/
theorem ask_of_read (h : c.store = some store) (h' : c'.store = some store) {text : String}
    (read : q.files.readText store = .ok text) : c.ask q = c'.ask q := by
  rw [ask_eq, ask_eq, reload_of_read h read, reload_of_read h' read]

theorem outcome_eq (h : c.store = some store) (h' : c'.store = some store)
    (known : ¬q.Recalled store) : c.outcome q = c'.outcome q := by
  unfold outcome
  cases read : q.files.readText store with
  | ok text => rw [ask_of_read h h' read]
  | error e =>
    rw [ask_eq, ask_eq]
    by_cases missing : e = .notFound
    · subst missing
      rw [reload_of_missing h read, reload_of_missing h' read]
      dsimp only [settle]
      cases seen : q.seen with
      | error e => rfl
      | ok seen' =>
        dsimp only
        rw [persist_of_store (c := c.noted q.key seen') h,
          persist_of_store (c := c'.noted q.key seen') h']
        cases writable : q.files.writable store with
        | error e => rfl
        | ok l => exact absurd ⟨read, ⟨seen', seen⟩, l, writable⟩ known
    · rw [reload_of_unreadable h read missing, reload_of_unreadable h' read missing]

/-- Caches on one store have the same outcomes, as long as none comes from memory. -/
theorem outcomes_eq (h : c.store = some store) (h' : c'.store = some store)
    (known : ¬Recalls store later) : c.outcomes later = c'.outcomes later := by
  induction later generalizing c c' with
  | nil => rfl
  | cons q qs ih =>
    obtain ⟨here, rest⟩ := not_or.mp known
    rw [outcomes, outcomes, outcome_eq h h' here]
    congr 1
    by_cases read : ∃ text, q.files.readText store = .ok text
    · obtain ⟨text, read⟩ := read
      rw [after, after, List.foldl_cons, List.foldl_cons, ask_of_read h h' read]
    · have unread : ∀ text, q.files.readText store ≠ .ok text := fun text found =>
        read ⟨text, found⟩
      exact ih ((ask_store c q).trans h) ((ask_store c' q).trans h') fun later =>
        rest ⟨unread, later⟩

theorem ask_of_recalled (h : c.store = some store) (recalled : q.Recalled store) :
    ∃ seen files, q.seen = .ok seen ∧
      c.ask q = (.ok (q.answer c.observations seen), c.noted q.key seen, files) := by
  obtain ⟨missing, ⟨seen, observed⟩, l, writable⟩ := recalled
  obtain ⟨files, persisted⟩ : ∃ files, (c.noted q.key seen).persist q.files = .ok files := by
    rw [persist_of_store (c := c.noted q.key seen) h, writable]
    exact ⟨_, rfl⟩
  refine ⟨seen, files, observed, ?_⟩
  rw [ask_eq, reload_of_missing h missing]
  dsimp only [settle]
  rw [observed]
  dsimp only
  rw [persisted]

/-- A question that is answered from memory has another answer when it was asked before. -/
theorem outcome_ne_of_recalled (recalled : now.Recalled store) :
    (onStore store).outcome now ≠ ((onStore store).after [now]).outcome now := by
  intro same
  obtain ⟨seen, files, observed, first⟩ := ask_of_recalled (c := onStore store) rfl recalled
  obtain ⟨seen', files', observed', second⟩ :=
    ask_of_recalled (c := (onStore store).noted now.key seen) rfl recalled
  obtain rfl := Except.ok.inj (observed.symm.trans observed')
  have answers := congrArg Prod.fst same
  simp only [outcome, after, List.foldl_cons, List.foldl_nil, first, second] at answers
  have new : (onStore store).observations.last? now.key = none := rfl
  have old : ((onStore store).noted now.key seen).observations.last? now.key = some seen := by
    rw [noted, Observations.last?_remember, if_pos rfl]
  simp [Question.answer, new, old] at answers

/-- **When earlier questions do not matter.** What a cache on a store answers, and what the files are
afterwards, is the same after any earlier questions exactly if it does not come from memory. -/
theorem outcome_after_iff (store : Path) (now : Question) :
    (∀ earlier earlier', ((onStore store).after earlier).outcome now =
      ((onStore store).after earlier').outcome now) ↔ ¬now.Recalled store := by
  constructor
  · intro same recalled
    exact outcome_ne_of_recalled recalled (same [] [now])
  · intro known earlier earlier'
    exact outcome_eq (after_store _ earlier) (after_store _ earlier') known

/-- A question about a file where there is nothing at all, hence no store. -/
def deserted : Question := { files := { nodes := [] }, path := ⟨"/doc.tex"⟩ }

/-- Without its store, a cache that was asked before says that nothing has changed, and a new one that
something has. -/
theorem recalled_afterRemoval :
    ((onStore ⟨"/ref"⟩).outcome deserted).1 = .ok true ∧
      (((onStore ⟨"/ref"⟩).after [deserted]).outcome deserted).1 = .ok false :=
  ⟨rfl, rfl⟩

/-! ## Questions without an answer -/

/-- A question without an answer changes no files, and a cache in memory stays as it is. -/
theorem ask_of_failure {e : CacheError} (failed : (c.ask q).1 = .error e) :
    (c.ask q).2.2 = q.files ∧ (c.store = none → (c.ask q).2.1 = c) := by
  rw [ask_eq] at failed ⊢
  cases reloaded : c.reload q.files with
  | error e' => exact ⟨rfl, fun _ => rfl⟩
  | ok c' =>
    -- a cache in memory has nothing to read again
    have reload (memory : c.store = none) : c' = c := by
      rw [reload_of_none memory] at reloaded
      exact (Except.ok.inj reloaded).symm
    rw [reloaded] at failed
    dsimp only [settle] at failed ⊢
    cases observed : q.seen with
    | error e' => exact ⟨rfl, reload⟩
    | ok seen =>
      rw [observed] at failed
      dsimp only at failed ⊢
      cases persisted : (c'.noted q.key seen).persist q.files with
      | error e' =>
        refine ⟨rfl, fun memory => ?_⟩
        rw [reload memory, persist_of_none (c := c.noted q.key seen) memory] at persisted
        cases persisted
      | ok files =>
        rw [persisted] at failed
        cases failed

/-- **A question without an answer leaves no trace.** The files are as they were, and all later outcomes
are those without the question, as long as a cache with a store does not answer from memory. -/
theorem outcomes_after_failure {e : CacheError} (failed : (c.outcome q).1 = .error e) :
    (c.outcome q).2 = q.files ∧
      ∀ later, (∀ store, c.store = some store → ¬Recalls store later) →
        (c.after [q]).outcomes later = c.outcomes later := by
  obtain ⟨files, memory⟩ := ask_of_failure failed
  refine ⟨files, fun later known => ?_⟩
  cases stored : c.store with
  | none => rw [after, List.foldl_cons, memory stored, List.foldl_nil]
  | some store => exact outcomes_eq ((ask_store c q).trans stored) stored (known store stored)

/-- The same question when there is a directory for the store. -/
def settled : Question := { deserted with files := { nodes := [(["sub"], .directory)] } }

/-- The same question when there is an empty store. -/
def stored : Question :=
  { deserted with files := { nodes := [(["sub"], .directory), (["sub", "ref"], .file .empty)] } }

/-- A question that failed because the store could not be written, and later ones that read the store. -/
theorem outcomes_after_failure_stored :
    ((onStore ⟨"/sub/ref"⟩).outcome deserted).1 = .error (.writeStore ⟨"/sub/ref"⟩ .notFound) ∧
      ((onStore ⟨"/sub/ref"⟩).after [deserted]).outcomes [stored, settled] =
        (onStore ⟨"/sub/ref"⟩).outcomes [stored, settled] := by
  refine ⟨rfl, (outcomes_after_failure (e := .writeStore ⟨"/sub/ref"⟩ .notFound) rfl).2 _ ?_⟩
  rintro store same (⟨missing, -⟩ | ⟨unread, -⟩)
  · cases Option.some.inj same
    cases missing
  · cases Option.some.inj same
    exact unread "" rfl

/-- The question that failed counts as answered if the store is still missing: now that it can be written,
the file is said to be unchanged. -/
theorem recalled_afterFailure :
    ((onStore ⟨"/sub/ref"⟩).outcome deserted).1 =
        .error (.writeStore ⟨"/sub/ref"⟩ .notFound) ∧
      ((onStore ⟨"/sub/ref"⟩).outcome settled).1 = .ok true ∧
      (((onStore ⟨"/sub/ref"⟩).after [deserted]).outcome settled).1 = .ok false :=
  ⟨rfl, rfl, rfl⟩

/-- The root, which is no file. -/
theorem observe_root (files : FileTree) :
    observe files (keyOf files ⟨"/"⟩) = .error (.readFile ⟨"/"⟩ .isDirectory) := by
  have route : files.route ⟨"/"⟩ = [[]] := rfl
  have located : files.locate ⟨"/"⟩ = .ok [] := by
    rw [FileTree.locate, if_neg (by decide), if_neg (by decide), route]
    rfl
  have key : keyOf files ⟨"/"⟩ = ⟨"/"⟩ := by
    have found : files.find ⟨"/"⟩ = .ok ([], .directory) :=
      FileTree.find_eq_ok.mpr ⟨located, rfl⟩
    rw [keyOf, FileTree.canonical, found]
    rfl
  rw [key, observe, Observation.ofFile, FileTree.read_of_locate located]
  rfl

/-- A question about the root with an empty store makes a cache forget, and has no answer. -/
theorem ask_root {files : FileTree} {l : Location} (h : c.store = some store)
    (writable : files.writable store = .ok l) :
    ∃ q e, c.ask q = (.error e, onStore store, q.files) := by
  obtain ⟨-, located, other⟩ := FileTree.writable_eq_ok.mp writable
  have inner : l ≠ [] := fun root => other (root ▸ rfl)
  have located' : (files.put l (.file .empty)).locate store = .ok l :=
    FileTree.locate_of_kept (t := files) rfl (FileTree.kept_put other _) located
  have read : (files.put l (.file .empty)).readText store = .ok "" := by
    rw [FileTree.readText, FileTree.read_of_locate located', FileTree.node?_put_self inner]
    rfl
  refine ⟨{ files := files.put l (.file .empty), path := ⟨"/"⟩ },
    .readFile ⟨"/"⟩ .isDirectory, ?_⟩
  rw [ask_eq, reload_of_read h read]
  dsimp only [settle, Question.seen, Question.key]
  rw [observe_root]
  rfl

/-- **When questions without an answer leave no trace** in the next outcome, whatever the earlier questions
and the question without an answer were: exactly if that outcome does not come from memory. -/
theorem outcome_after_failure_iff (store : Path) (now : Question) :
    (∀ earlier q e, (((onStore store).after earlier).outcome q).1 = .error e →
      ((onStore store).after (earlier ++ [q])).outcome now =
        ((onStore store).after earlier).outcome now) ↔ ¬now.Recalled store := by
  constructor
  · intro traceless recalled
    obtain ⟨q, e, failed⟩ := ask_root (c := (onStore store).after [now]) (after_store _ [now])
      recalled.2.2.choose_spec
    have same := traceless [now] q e (congrArg Prod.fst failed)
    have forgotten : (onStore store).after ([now] ++ [q]) = onStore store := by
      rw [after_append, after, List.foldl_cons, failed]
      rfl
    rw [forgotten] at same
    exact outcome_ne_of_recalled recalled same
  · intro known earlier q e _
    exact outcome_eq (after_store _ _) (after_store _ earlier) known

end Cache

end DirectiveRunner
