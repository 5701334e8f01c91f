import DirectiveRunner.Proofs.Question
import DirectiveRunner.Proofs.Store
/-!
# Caches on one store answer as one

Any number of caches on one store are asked in any order, while the files they are asked about are
written and deleted. If nobody else touches the store, they answer as one cache in memory would that is
asked the same questions of the same files (`answers_eq_alone`): a cache reads the store before it
answers, and what it reads is what all caches together have seen (`Synced`), since a store is read back
as it was written.

The store is one of the files, and a path may lead through it as `/ref/../doc.tex` leads through `/ref`.
What there is to be seen by such a path changes when the store is written
(`answers_ne_alone_throughStore`). By all other paths the caches see what they would see without a store.
-/

namespace DirectiveRunner

variable {ι : Type}

/-- What happens to caches and files: a cache is asked about a file, or a file is written or deleted. -/
inductive Deed (ι : Type) where
  /-- A cache is asked whether a file has changed or, if `negated`, whether it is unchanged. -/
  | ask (handle : ι) (path : Path) (negated : Bool)
  /-- A file is written; nothing happens if it cannot be. -/
  | write (path : Path) (bytes : ByteArray)
  /-- A file is deleted; nothing happens if there is none. -/
  | delete (path : Path)

namespace Deed

def path : Deed ι → Path
  | ask _ p _ | write p _ | delete p => p

/-- The same deed, with one cache to be asked. -/
def onOne : Deed ι → Deed Unit
  | ask _ p negated => .ask () p negated
  | write p bytes => .write p bytes
  | delete p => .delete p

/-- The question that is asked of the files. -/
def question? (files : FileTree) : Deed ι → Option Question
  | ask _ p negated => some { files, path := p, negated }
  | _ => none

end Deed

/-- Caches and the files they are asked about. -/
structure Handles (ι : Type) where
  caches : ι → Cache
  files : FileTree

namespace Handles

variable [DecidableEq ι]

/-- Caches and files after one cache was asked. -/
def asked (w : Handles ι) (i : ι) (q : Question) : Handles ι where
  caches j := if j = i then ((w.caches i).ask q).2.1 else w.caches j
  files := ((w.caches i).ask q).2.2

/-- A deed, with the answer to a question. -/
def act (w : Handles ι) : Deed ι → Option (Except CacheError Bool) × Handles ι
  | .ask i p negated =>
    let q : Question := { files := w.files, path := p, negated }
    (some ((w.caches i).ask q).1, w.asked i q)
  | .write p bytes => (none, { w with files := w.files.wrote p bytes })
  | .delete p => (none, { w with files := w.files.deleted p })

/-- The answers to the questions in a sequence of deeds. -/
def answers (w : Handles ι) : List (Deed ι) → List (Except CacheError Bool)
  | [] => []
  | d :: ds => (w.act d).1.toList ++ (w.act d).2.answers ds

/-- The questions in a sequence of deeds, with the files as they are when they are asked. -/
def questions (w : Handles ι) : List (Deed ι) → List Question
  | [] => []
  | d :: ds => (d.question? w.files).toList ++ (w.act d).2.questions ds

end Handles

open FileTree (Agree Spares)

/-- A path is written on one line and does not lead to a location. -/
structure Tracked (files : FileTree) (l : Location) (p : Path) : Prop where
  oneLine : ∀ s ∈ files.moves p, '\n' ∉ s
  elsewhere : files.place p ≠ l

theorem Tracked.of_current {files files' : FileTree} {l : Location} {p : Path}
    (h : Tracked files l p) (current : files'.current = files.current) : Tracked files' l p := by
  have moves := FileTree.moves_of_current current p
  refine ⟨moves ▸ h.oneLine, ?_⟩
  rw [FileTree.place, moves]
  exact h.elsewhere

/-- The name that a tracked file is remembered under is written on one line, too. -/
theorem Tracked.oneLine_keyOf {files : FileTree} {l : Location} {p : Path} (h : Tracked files l p) :
    '\n' ∉ (Cache.keyOf files p).chars := by
  intro feed
  rcases FileTree.mem_keyOf feed with slash | dot | ⟨s, mem, feed⟩
  · exact absurd slash (by decide)
  · exact absurd dot (by decide)
  · exact h.oneLine s mem feed

/-- Caches on one store have in it what a cache in memory has seen. -/
structure Synced (store : Path) (l : Location) (w : Handles ι) (c : Cache) : Prop where
  /-- The one cache is in memory. -/
  memory : c.store = none
  /-- What it has seen can be stored. -/
  storable : c.observations.Storable
  stores : ∀ i, (w.caches i).store = some store
  writable : w.files.writable store = .ok l
  /-- The store holds what was seen; before anything was, it may be missing. -/
  synced : w.files.node? l = some (.file (Text.Utf8.encode (.ofList c.observations.write))) ∨
    w.files.node? l = none ∧ c.observations = [] ∧ ∀ i, (w.caches i).observations = []

/-- What a cache in memory answers does not depend on what its path avoids. -/
theorem Cache.ask_of_agree {c : Cache} (memory : c.store = none) {l : Location}
    {files files' : FileTree} {p : Path} (agree : Agree l files files') (avoids : files.Avoids l p)
    (negated : Bool) :
    let q : Question := { files, path := p, negated }
    c.ask { q with files := files' } = ((c.ask q).1, (c.ask q).2.1, files') := by
  intro q
  have key : Question.key { q with files := files' } = q.key := agree.keyOf_eq avoids
  have seen : Question.seen { q with files := files' } = q.seen := by
    rw [Question.seen, Question.seen, key, Cache.observe, Cache.observe,
      agree.ofFile_eq (p := q.key) avoids.keyOf]
  rw [ask_of_memory memory, ask_of_memory memory, seen]
  cases q.seen with
  | error e => rfl
  | ok seen => simp only [Question.answer, key]

namespace Synced

variable {store : Path} {l : Location} {w : Handles ι} {c : Cache}

/-- Whichever cache is asked, it knows what the one cache knows. -/
theorem reload (h : Synced store l w c) (i : ι) :
    (w.caches i).reload w.files = .ok { store := some store, observations := c.observations } := by
  have located := (FileTree.writable_eq_ok.mp h.writable).2.1
  rcases h.synced with written | ⟨missing, nothing, new⟩
  · have read : w.files.readText store = .ok (.ofList c.observations.write) := by
      rw [FileTree.readText, FileTree.read_of_locate located, written]
      simp [bind, Except.bind, Text.Utf8.decode?_encode]
    rw [Cache.reload_of_read (h.stores i) read, String.toList_ofList,
      Observations.read_write h.storable]
  · have read : w.files.readText store = .error .notFound := by
      rw [FileTree.readText, FileTree.read_of_locate located, missing]
      rfl
    rw [Cache.reload_of_missing (h.stores i) read, nothing, ← new i, ← h.stores i]

/-- Caches that have just been reloaded, or have not. -/
theorem reloaded (h : Synced store l w c) {caches : ι → Cache}
    (h' : ∀ j, caches j = w.caches j ∨
      caches j = { store := some store, observations := c.observations }) :
    Synced store l { caches, files := w.files } c where
  memory := h.memory
  storable := h.storable
  stores j := by
    rcases h' j with same | same
    · exact (congrArg Cache.store same).trans (h.stores j)
    · exact congrArg Cache.store same
  writable := h.writable
  synced := by
    refine h.synced.imp id fun ⟨missing, nothing, new⟩ => ⟨missing, nothing, fun j => ?_⟩
    rcases h' j with same | same
    · exact (congrArg Cache.observations same).trans (new j)
    · exact (congrArg Cache.observations same).trans nothing

/-- The store is written anew with one more observation. -/
theorem noted (h : Synced store l w c) {key : Path} (oneLine : '\n' ∉ key.chars)
    (seen : Observation) {caches : ι → Cache} (stores : ∀ j, (caches j).store = some store) :
    Synced store l { caches, files := w.files.put l (.file (Text.Utf8.encode (.ofList
      (c.noted key seen).observations.write))) } (c.noted key seen) := by
  have other := (FileTree.writable_eq_ok.mp h.writable).2.2
  have inner : l ≠ [] := fun root => other (root ▸ rfl)
  have found (bytes : ByteArray) := FileTree.node?_put_self inner w.files (.file bytes)
  refine ⟨h.memory, h.storable.remember oneLine seen, stores, ?_, .inl (found _)⟩
  refine FileTree.writable_of_kept (t := w.files) rfl (FileTree.kept_put other _) ?_ h.writable
  simp [found]

/-- A change of the files that spares the store. -/
theorem changed (h : Synced store l w c) {files : FileTree} (spares : Spares l w.files files) :
    Synced store l { w with files } c where
  memory := h.memory
  storable := h.storable
  stores := h.stores
  writable := spares.writable h.writable
  synced := by
    rw [spares.node]
    exact h.synced

variable [DecidableEq ι]

/-- A cache is asked what the one cache is asked, and answers the same. -/
theorem ask (h : Synced store l w c) (i : ι) {p : Path} (negated : Bool)
    (oneLine : '\n' ∉ (Cache.keyOf w.files p).chars) :
    let q : Question := { files := w.files, path := p, negated }
    ((w.caches i).ask q).1 = (c.ask q).1 ∧ Synced store l (w.asked i q) (c.ask q).2.1 ∧
      Agree l w.files (w.asked i q).files := by
  intro q
  have one : c.ask q = c.settle q := by rw [Cache.ask_eq, Cache.reload_of_none h.memory]
  -- a cache that reloads its store knows all that the one cache knows
  have many : (w.caches i).ask q =
      Cache.settle { store := some store, observations := c.observations } q := by
    rw [Cache.ask_eq, h.reload i]
  rw [Handles.asked, one, many]
  dsimp only [Cache.settle]
  cases q.seen with
  | error e =>
    refine ⟨rfl, h.reloaded fun j => ?_, ⟨rfl, fun _ _ => rfl⟩⟩
    split
    · exact .inr rfl
    · exact .inl rfl
  | ok seen =>
    dsimp only
    rw [Cache.persist_of_none (c := c.noted q.key seen) h.memory,
      Cache.persist_of_store (c := Cache.noted _ q.key seen) rfl, h.writable]
    refine ⟨rfl, h.noted oneLine seen fun j => ?_, ⟨rfl, fun n other => ?_⟩⟩
    · dsimp only
      split
      · rfl
      · exact h.stores j
    · exact FileTree.node?_put_of_ne other _ _

/-- One deed: the answer to a question is that of the one cache. -/
theorem act (h : Synced store l w c) {d : Deed ι} (tracked : Tracked w.files l d.path) :
    (w.act d).1 = (d.question? w.files).map (fun q => (c.outcome q).1) ∧
      Synced store l (w.act d).2 (c.after (d.question? w.files).toList) ∧
      (w.act d).2.files.current = w.files.current := by
  cases d with
  | ask i p negated =>
    obtain ⟨answer, synced, agree⟩ := h.ask i negated tracked.oneLine_keyOf
    exact ⟨congrArg some answer, synced, agree.current⟩
  | write p bytes =>
    have spares := FileTree.spares_wrote tracked.elsewhere bytes
    exact ⟨rfl, h.changed spares, spares.current⟩
  | delete p =>
    have located := (FileTree.writable_eq_ok.mp h.writable).2.1
    have spares := FileTree.spares_deleted tracked.elsewhere (FileTree.standing_of_locate located)
    exact ⟨rfl, h.changed spares, spares.current⟩

/-- A run: the answers are those of the one cache. -/
theorem answers (h : Synced store l w c) {deeds : List (Deed ι)}
    (tracked : ∀ d ∈ deeds, Tracked w.files l d.path) :
    w.answers deeds = (c.outcomes (w.questions deeds)).map (·.1) := by
  induction deeds generalizing w c with
  | nil => rfl
  | cons d deeds ih =>
    obtain ⟨here, rest⟩ := List.forall_mem_cons.mp tracked
    obtain ⟨answer, synced, current⟩ := h.act here
    have first : (w.act d).1.toList = (c.outcomes (d.question? w.files).toList).map (·.1) := by
      rw [answer]
      cases d.question? w.files <;> rfl
    rw [Handles.answers, Handles.questions, Cache.outcomes_append, List.map_append, first,
      ih synced fun d' mem => (rest d' mem).of_current current]

/-- A cache in memory answers the same when the store is not there. -/
theorem act_alone (h : Synced store l w c) {d : Deed ι} (tracked : Tracked w.files l d.path)
    {files : FileTree} (agree : Agree l w.files files) (avoids : w.files.Avoids l d.path) :
    ∃ files', Handles.act { caches := fun _ => c, files } d.onOne =
      ((w.act d).1, { caches := fun _ => c.after (d.question? w.files).toList, files := files' }) ∧
      Agree l (w.act d).2.files files' := by
  cases d with
  | ask i p negated =>
    obtain ⟨answer, -, kept⟩ := h.ask i negated (tracked.oneLine_keyOf)
    have alone := Cache.ask_of_agree h.memory agree avoids negated
    refine ⟨files, ?_, ⟨agree.current.trans kept.current.symm, fun n other => ?_⟩⟩
    · simp only [Deed.onOne, Handles.act, Handles.asked, if_true, Deed.path] at *
      rw [alone, answer]
      rfl
    · exact (agree.node n other).trans (kept.node n other).symm
  | write p bytes => exact ⟨_, rfl, agree.wrote avoids bytes⟩
  | delete p => exact ⟨_, rfl, agree.deleted avoids⟩

theorem answers_alone (h : Synced store l w c) {deeds : List (Deed ι)}
    (tracked : ∀ d ∈ deeds, Tracked w.files l d.path) {files : FileTree}
    (agree : Agree l w.files files) (avoids : ∀ d ∈ deeds, w.files.Avoids l d.path) :
    w.answers deeds = Handles.answers { caches := fun _ => c, files } (deeds.map Deed.onOne) := by
  induction deeds generalizing w c files with
  | nil => rfl
  | cons d deeds ih =>
    obtain ⟨here, rest⟩ := List.forall_mem_cons.mp tracked
    obtain ⟨hidden, later⟩ := List.forall_mem_cons.mp avoids
    obtain ⟨answer, synced, current⟩ := h.act here
    obtain ⟨files', alone, agree'⟩ := h.act_alone here agree hidden
    rw [Handles.answers, List.map_cons, Handles.answers, alone]
    dsimp only
    rw [ih synced (fun d' mem => (rest d' mem).of_current current) agree' fun d' mem =>
      (later d' mem).of_current current]

end Synced

/-- **Caches on one store answer as one.** Their answers are those of a cache in memory that is asked
the same questions of the same files; and they are those of a cache in memory that is left alone with
the deeds, in files without the store, if no path leads through the store. -/
theorem answers_eq_alone [DecidableEq ι] {store : Path} {files : FileTree} {l : Location}
    (writable : files.writable store = .ok l) (missing : files.node? l = none)
    {deeds : List (Deed ι)} (tracked : ∀ d ∈ deeds, Tracked files l d.path) :
    let w : Handles ι := { caches := fun _ => .onStore store, files }
    w.answers deeds = (Cache.inMemory.outcomes (w.questions deeds)).map (·.1) ∧
      ((∀ d ∈ deeds, files.Avoids l d.path) →
        w.answers deeds =
          Handles.answers { caches := fun _ => .inMemory, files } (deeds.map Deed.onOne)) := by
  intro w
  have synced : Synced store l w .inMemory :=
    ⟨rfl, .nil, fun _ => rfl, writable, .inr ⟨missing, rfl, fun _ => rfl⟩⟩
  exact ⟨synced.answers tracked, synced.answers_alone tracked ⟨rfl, fun _ _ => rfl⟩⟩

/-- A cache is asked twice about a file by a path that leads through its store. -/
def throughStore : List (Deed Unit) :=
  [.ask () ⟨"/ref/../doc.tex"⟩ false, .ask () ⟨"/ref/../doc.tex"⟩ false]

/-- Writing the store changes what is to be seen of a file if its path leads through the store: where a
cache in memory goes on seeing that there is no file, a cache with the store finds that a part of the
path is no directory. -/
theorem answers_ne_alone_throughStore :
    FileTree.writable .empty ⟨"/ref"⟩ = .ok ["ref"] ∧ FileTree.node? .empty ["ref"] = none ∧
      (∀ d ∈ throughStore, Tracked .empty ["ref"] d.path) ∧
      Handles.answers { caches := fun _ => .onStore ⟨"/ref"⟩, files := .empty } throughStore =
        [.ok true, .error (.readFile ⟨"/ref/../doc.tex"⟩ .notDirectory)] ∧
      Handles.answers { caches := fun _ => .inMemory, files := .empty }
        (throughStore.map Deed.onOne) = [.ok true, .ok false] := by
  have tracked : Tracked .empty ["ref"] ⟨"/ref/../doc.tex"⟩ := ⟨by decide, by decide⟩
  have allTracked : ∀ d ∈ throughStore, Tracked .empty ["ref"] d.path := by
    simpa [throughStore, Deed.path] using tracked
  exact ⟨rfl, rfl, allTracked, rfl, rfl⟩

/-- Two caches are asked in turn about a file that is made and deleted. -/
def inTurn : List (Deed Bool) :=
  [.ask true ⟨"/a=b"⟩ false, .ask false ⟨"/a=b"⟩ false, .write ⟨"/a=b"⟩ ⟨#[120]⟩,
    .ask false ⟨"/a=b"⟩ false, .ask true ⟨"/a=b"⟩ true, .delete ⟨"/a=b"⟩, .ask true ⟨"/a=b"⟩ false]

theorem answers_eq_alone_inTurn :
    Handles.answers { caches := fun _ => .onStore ⟨"/ref"⟩, files := .empty } inTurn =
      [.ok true, .ok false, .ok true, .ok true, .ok true] := by
  have tracked : Tracked .empty ["ref"] ⟨"/a=b"⟩ := ⟨by decide, by decide⟩
  have avoids : FileTree.Avoids .empty ["ref"] ⟨"/a=b"⟩ := fun ms start => by
    have moves : FileTree.moves .empty ⟨"/a=b"⟩ = [] ++ [['a', '=', 'b']] := rfl
    rw [moves] at start
    rcases List.prefix_concat_iff.mp start with rfl | root
    · decide
    · rw [List.prefix_nil.mp root]
      decide
  have allTracked : ∀ d ∈ inTurn, Tracked .empty ["ref"] d.path := by
    simpa [inTurn, Deed.path] using tracked
  have allAvoid : ∀ d ∈ inTurn, FileTree.Avoids .empty ["ref"] d.path := by
    simpa [inTurn, Deed.path] using avoids
  have writable : FileTree.writable .empty ⟨"/ref"⟩ = .ok ["ref"] := rfl
  exact ((answers_eq_alone writable rfl allTracked).2 allAvoid).trans rfl

end DirectiveRunner
