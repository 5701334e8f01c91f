import DirectiveRunner.Proofs.Question
import DirectiveRunner.Proofs.Store
/-!
# What a store keeps

A cache writes what it has seen to its store, and another cache on that store reads it. Since the entries
of a store stand on lines of their own, one thing in a path is not kept: a line feed. Nothing else can go
wrong, neither by what a path holds nor by how many of them there are (`reload_persisted_iff`).

A file with a line feed in its name is therefore reported as changed each time it is asked about, though
the store is written and read (`reload_twoLines`).
-/

namespace DirectiveRunner

/-- Observations are a map: in the order of the paths, each path once and under its own components. -/
structure Observations.IsMap (o : Observations) : Prop where
  ordered : Dict.Ordered o
  keyed : ∀ e ∈ o, e.2.1.components = e.1

theorem Observations.storable_iff {o : Observations} (map : o.IsMap) :
    o.Storable ↔ ∀ e ∈ o, '\n' ∉ e.2.1.chars :=
  ⟨fun storable => storable.oneLine, fun oneLine => ⟨map.ordered, map.keyed, oneLine⟩⟩

namespace Cache

variable {store : Path} {files files' : FileTree}

/-- A cache on a store that was just written remembers what its text says, whatever it knew before. -/
theorem reload_persisted {c fresh : Cache} (old : c.store = some store)
    (new : fresh.store = some store) (persisted : c.persist files = .ok files') :
    fresh.reload files' =
      .ok { store := some store, observations := .read c.observations.write } := by
  rw [persist_of_store old] at persisted
  cases writable : files.writable store with
  | error e =>
    rw [writable] at persisted
    cases persisted
  | ok l =>
    rw [writable] at persisted
    obtain rfl := Except.ok.inj persisted
    obtain ⟨-, located, other⟩ := FileTree.writable_eq_ok.mp writable
    have inner : l ≠ [] := fun root => other (root ▸ rfl)
    let bytes := Text.Utf8.encode (.ofList c.observations.write)
    -- the directories that lead to the store are still there, so it is found where it was put
    have located' : (files.put l (.file bytes)).locate store = .ok l :=
      FileTree.locate_of_kept (t := files) rfl (FileTree.kept_put other _) located
    have read : (files.put l (.file bytes)).readText store = .ok (.ofList c.observations.write) := by
      rw [FileTree.readText, FileTree.read_of_locate located', FileTree.node?_put_self inner]
      simp [bytes, bind, Except.bind, Text.Utf8.decode?_encode]
    rw [reload_of_read new read, String.toList_ofList]

/-- **What a store keeps.** A map that is written to a store is what a fresh cache reads from it exactly if
no path of the map has a line feed. -/
theorem reload_persisted_iff {o : Observations} (map : o.IsMap)
    (persisted : persist { store := some store, observations := o } files = .ok files') :
    (onStore store).reload files' = .ok { store := some store, observations := o } ↔
      ∀ e ∈ o, '\n' ∉ e.2.1.chars := by
  rw [reload_persisted rfl rfl persisted, ← Observations.storable_iff map,
    ← Observations.read_write_eq_iff]
  constructor
  · intro same
    exact congrArg Cache.observations (Except.ok.inj same)
  · intro same
    rw [same]

/-- A map with a path of blanks, a separator and control characters, and one with needless slashes. -/
def oddNames : Observations :=
  [([.root, .name " =-\r\t"], ⟨"/ =-\r\t"⟩, .present 0xFFFF),
    ([.root, .name "a", .name "b"], ⟨"//a//b/"⟩, .absent)]

theorem reload_persisted_iff_oddNames : oddNames.IsMap ∧
    ∃ files, persist { store := some ⟨"/ref"⟩, observations := oddNames } .empty = .ok files ∧
      (onStore ⟨"/ref"⟩).reload files =
        .ok { store := some ⟨"/ref"⟩, observations := oddNames } := by
  have map : oddNames.IsMap := ⟨by unfold Dict.Ordered; decide, by decide⟩
  obtain ⟨files, persisted⟩ : ∃ files,
      persist { store := some ⟨"/ref"⟩, observations := oddNames } .empty = .ok files := ⟨_, rfl⟩
  exact ⟨map, files, persisted, (reload_persisted_iff map persisted).mpr (by decide)⟩

/-- A map with a path that is written on two lines. -/
def twoLines : Observations := [([.root, .name "a\nb"], ⟨"/a\nb"⟩, .absent)]

/-- The first line of such a path is lost, and the second one is taken for a path, so the file counts as
changed when it is asked about again. -/
theorem reload_twoLines : twoLines.IsMap ∧
    ∃ files, persist { store := some ⟨"/ref"⟩, observations := twoLines } .empty = .ok files ∧
      (onStore ⟨"/ref"⟩).reload files =
        .ok { store := some ⟨"/ref"⟩, observations := [([.name "b"], ⟨"b"⟩, .absent)] } ∧
      ((onStore ⟨"/ref"⟩).outcome { files, path := ⟨"/a\nb"⟩ }).1 = .ok true :=
  ⟨⟨by unfold Dict.Ordered; decide, by decide⟩, _, rfl, rfl, rfl⟩

end Cache

end DirectiveRunner
