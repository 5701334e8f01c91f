import DirectiveRunner.Proofs.Question
/-!
# A cache in memory tells what has changed

Questions name files by paths, and a file that is there is found in another way than one that is not.
As long as the paths end in proper names in directories that exist (`Named`), both lead to the place of
the path, so the cache keeps one entry for each place: what the latest question saw there. Between two
questions anything may happen to the files.

`outcome_inMemory` puts this together: a file is said to have changed exactly if what is seen of it, the
CRC-32 of its contents or its absence, differs from what was last seen at its place, under whatever
spelling. A question without an answer is as if it had not been asked.
-/

namespace DirectiveRunner

namespace Question

/-- The place of the file. -/
def place (q : Question) : Location := q.files.place q.path

/-- The path ends in a proper name, and its directory exists. -/
def Named (q : Question) : Prop := q.files.Named q.path

/-- What the question sees at a location, if it is about it and has an answer. -/
noncomputable def saw (l : Location) (q : Question) : Option Observation :=
  if q.place = l then (q.files.seenAt l).toOption else none

/-- What the latest of some questions saw at a location. -/
noncomputable def lastSeen (l : Location) (earlier : List Question) : Option Observation :=
  earlier.reverse.findSome? (saw l)

variable {q : Question} {qs : List Question} {l : Location}

theorem lastSeen_cons (l : Location) (q : Question) (qs : List Question) :
    lastSeen l (q :: qs) = (lastSeen l qs).or (q.saw l) := by
  rw [lastSeen, List.reverse_cons, List.findSome?_append, lastSeen, List.findSome?_singleton]

theorem proper_place (q : Question) : ∀ n ∈ q.place, FileTree.Proper n :=
  fun _ mem => (FileTree.mem_place mem).2

theorem key_of_named (h : q.Named) : q.key = FileTree.pathOf q.place :=
  FileTree.keyOf_of_named h

theorem seen_of_named (h : q.Named) : q.seen =
    match q.files.seenAt q.place with
    | .ok seen => .ok seen
    | .error e => .error (.readFile (FileTree.pathOf q.place) e) := by
  have found : Observation.ofFile q.files (FileTree.pathOf q.place) = q.files.seenAt q.place :=
    FileTree.Named.ofFile_pathOf h
  unfold Question.seen Cache.observe
  rw [key_of_named h]
  cases seen : q.files.seenAt q.place with
  | ok seen' => simp only [found.trans seen]
  | error e => simp only [found.trans seen]

end Question

namespace Observations

/-- Different places are different entries. -/
theorem last?_remember_pathOf {l l' : Location} (proper : ∀ n ∈ l, FileTree.Proper n)
    (proper' : ∀ n ∈ l', FileTree.Proper n) (o : Observations) (seen : Observation) :
    (o.remember (FileTree.pathOf l) seen).last? (FileTree.pathOf l') =
      if l = l' then some seen else o.last? (FileTree.pathOf l') := by
  have names : l'.map Path.Component.name = l.map .name ↔ l = l' := by
    rw [List.map_inj_right (by simp), eq_comm]
  rw [last?_remember, FileTree.components_pathOf proper, FileTree.components_pathOf proper']
  simp only [List.cons.injEq, true_and, names]

end Observations

namespace Cache

open Question (lastSeen)

variable {c : Cache} {q now : Question} {qs earlier : List Question} {l : Location}

theorem ask_inMemory (memory : c.store = none) (h : q.Named) : c.ask q =
    match q.files.seenAt q.place with
    | .error e => (.error (.readFile (FileTree.pathOf q.place) e), c, q.files)
    | .ok seen =>
      (.ok (q.answer c.observations seen), c.noted (FileTree.pathOf q.place) seen, q.files) := by
  rw [ask_of_memory memory, Question.seen_of_named h, Question.key_of_named h]
  cases q.files.seenAt q.place <;> rfl

/-- What a cache in memory remembers of a place after questions. -/
theorem last?_after (memory : c.store = none) (proper : ∀ n ∈ l, FileTree.Proper n)
    (h : ∀ q ∈ qs, q.Named) :
    (c.after qs).observations.last? (FileTree.pathOf l) =
      (lastSeen l qs).or (c.observations.last? (FileTree.pathOf l)) := by
  induction qs generalizing c with
  | nil => rfl
  | cons q qs ih =>
    obtain ⟨first, later⟩ := List.forall_mem_cons.mp h
    -- the first question is the oldest, so it counts only where no later one saw the place
    have here : (c.ask q).2.1.observations.last? (FileTree.pathOf l) =
        (q.saw l).or (c.observations.last? (FileTree.pathOf l)) := by
      rw [ask_inMemory memory first, Question.saw]
      by_cases same : q.place = l
      · subst same
        rw [if_pos rfl]
        cases q.files.seenAt q.place with
        | error e => rfl
        | ok seen =>
          dsimp only [noted]
          rw [Observations.last?_remember_pathOf proper proper, if_pos rfl]
          rfl
      · rw [if_neg same, Option.none_or]
        cases q.files.seenAt q.place with
        | error e => rfl
        | ok seen =>
          dsimp only [noted]
          rw [Observations.last?_remember_pathOf q.proper_place proper, if_neg same]
    have rest := ih ((ask_store c q).trans memory) later
    rw [here, ← Option.or_assoc, ← Question.lastSeen_cons] at rest
    exact rest

/-- **A cache in memory tells what has changed** at the place of a path since it was last seen, going by
the CRC-32 of the file or its absence, and it finds the file under the path of its place, whether there
is one or not. -/
theorem outcome_inMemory (h : ∀ q ∈ earlier, q.Named) (named : now.Named) :
    now.key = FileTree.pathOf now.place ∧
      (inMemory.after earlier).outcome now =
        (match now.files.seenAt now.place with
          | .error e => .error (.readFile (FileTree.pathOf now.place) e)
          | .ok seen => .ok (decide (lastSeen now.place earlier ≠ some seen) ^^ now.negated),
        now.files) := by
  have key := Question.key_of_named named
  have remembered := last?_after (c := inMemory) rfl now.proper_place h
  have nothing : inMemory.observations.last? (FileTree.pathOf now.place) = none := rfl
  rw [nothing, Option.or_none] at remembered
  refine ⟨key, ?_⟩
  rw [outcome, ask_inMemory (after_store inMemory earlier) named]
  cases now.files.seenAt now.place with
  | error e => rfl
  | ok seen => simp only [Question.answer, key, remembered]

/-- A directory with another one in it, seen from the first. -/
def directories : FileTree :=
  { nodes := [(["work"], .directory), (["work", "sub"], .directory)], current := ["work"] }

/-- The same with a file. -/
def withFile : FileTree := directories.put ["work", "a"] (.file ⟨#[120]⟩)

/-- The same with other contents of the file. -/
def edited : FileTree := directories.put ["work", "a"] (.file ⟨#[121]⟩)

/-- A file that was seen, then deleted, is reported when it is made anew, under whatever spelling, and a
file is reported when its contents have another CRC-32. -/
theorem outcome_inMemory_madeAnew :
    (inMemory.after [{ files := withFile, path := ⟨"a"⟩ },
        { files := directories, path := ⟨"/work/sub/../a"⟩ }]).outcome
      { files := withFile, path := ⟨"sub/.././a/"⟩ } = (.ok true, withFile) ∧
    (inMemory.after [{ files := withFile, path := ⟨"a"⟩ }]).outcome
      { files := edited, path := ⟨"./a"⟩ } = (.ok true, edited) := by
  have seen : Question.Named { files := withFile, path := ⟨"a"⟩ } :=
    ⟨⟨['a'], rfl, by decide⟩, ⟨["work"], rfl, rfl⟩, by decide⟩
  have gone : Question.Named { files := directories, path := ⟨"/work/sub/../a"⟩ } :=
    ⟨⟨['a'], rfl, by decide⟩, ⟨["work"], rfl, rfl⟩, by decide⟩
  have anew : Question.Named { files := withFile, path := ⟨"sub/.././a/"⟩ } :=
    ⟨⟨['a'], rfl, by decide⟩, ⟨["work"], rfl, rfl⟩, by decide⟩
  have later : Question.Named { files := edited, path := ⟨"./a"⟩ } :=
    ⟨⟨['a'], rfl, by decide⟩, ⟨["work"], rfl, rfl⟩, by decide⟩
  have named : ∀ q ∈ [{ files := withFile, path := ⟨"a"⟩ },
      { files := directories, path := ⟨"/work/sub/../a"⟩ }], Question.Named q := by
    simp [seen, gone]
  have differ : crc32 [120] ≠ crc32 [121] := by
    rw [← checksum_eq_crc32 ⟨#[120]⟩, ← checksum_eq_crc32 ⟨#[121]⟩]
    decide
  refine ⟨(outcome_inMemory named anew).2.trans rfl,
    (outcome_inMemory (List.forall_mem_singleton.mpr seen) later).2.trans ?_⟩
  show (Except.ok (decide (some (Observation.present (crc32 [120])) ≠
    some (.present (crc32 [121]))) ^^ false), edited) = (.ok true, edited)
  simp [differ]

end Cache

end DirectiveRunner
