import DirectiveRunner.Cache.Cache
import DirectiveRunner.Value
/-!
# Sessions

What is kept between the directives of a run: the properties given on the command line, the values
stored by expressions, the files that were halted with their codes, and the change cache. The
properties are seen by expressions under names that start with `arg:`, which stored values cannot
hide (`lookup_snapshot_property`).
-/

namespace DirectiveRunner

/-- The state of a run. -/
structure Session where
  /-- The properties given on the command line. -/
  properties : List (String × String) := []
  /-- The stored values. -/
  store : Bindings := []
  /-- The halted files with their codes. -/
  halts : List (List Path.Component × Int64) := []
  cache : Cache := {}
deriving Repr, Inhabited

namespace Session

def start (properties : List (String × String)) (store : Option Path) : Session :=
  { properties, cache := { store } }

/-- The name a property is seen under. -/
def propertyKey (key : String) : String := "arg:" ++ key

/-- The stored values and the properties as expressions see them. -/
def snapshot (s : Session) : Bindings :=
  s.properties.foldl (fun view p => Dict.insert (propertyKey p.1) (.str p.2) view) s.store

def put (s : Session) (key : String) (v : Value) : Session :=
  { s with store := Dict.insert key v s.store }

def get? (s : Session) (key : String) : Option Value := Dict.lookup key s.store

/-- Halts a file with a code, which replaces an earlier one. -/
def halt (s : Session) (file : Path) (code : Int64) : Session :=
  { s with halts := Dict.insert file.components code s.halts }

/-- The code a file was halted with. -/
def haltCode? (s : Session) (file : Path) : Option Int64 := Dict.lookup file.components s.halts

def isHalted (s : Session) (file : Path) : Bool := (s.haltCode? file).isSome

@[simp] theorem haltCode?_halt_self (s : Session) (file : Path) (code : Int64) :
    (s.halt file code).haltCode? file = some code := by
  simp [halt, haltCode?]

theorem haltCode?_halt_of_ne {file other : Path} (h : other.components ≠ file.components)
    (s : Session) (code : Int64) : (s.halt file code).haltCode? other = s.haltCode? other := by
  simp [halt, haltCode?, Dict.lookup_insert_of_ne h]

theorem propertyKey_inj {k k' : String} : propertyKey k = propertyKey k' ↔ k = k' := by
  simp [propertyKey, ← String.toList_inj]

theorem snapshot_eq (s : Session) : s.snapshot =
    Dict.setAll (s.properties.map fun p => (propertyKey p.1, .str p.2)) s.store := by
  simp [snapshot, Dict.setAll, List.foldl_map]

/-- A stored value cannot hide a property. -/
theorem lookup_snapshot_property {s : Session} (h : Dict.Ordered s.properties)
    {key value : String} (given : Dict.lookup key s.properties = some value) :
    Dict.lookup (propertyKey key) s.snapshot = some (.str value) := by
  obtain ⟨before, after, split⟩ := List.append_of_mem (Dict.mem_of_lookup given)
  rw [Dict.Ordered, split] at h
  have once := (List.pairwise_cons.mp (List.pairwise_append.mp h).2.1).1
  rw [snapshot_eq, split, List.map_append, List.map_cons]
  apply Dict.lookup_setAll_last
  intro e mem same
  obtain ⟨p, listed, rfl⟩ := List.mem_map.mp mem
  exact (once p listed).1 (propertyKey_inj.mp same.symm)

/-- Other keys show what is stored. -/
theorem lookup_snapshot_of_ne {s : Session} {key : String}
    (h : ∀ p ∈ s.properties, propertyKey p.1 ≠ key) :
    Dict.lookup key s.snapshot = Dict.lookup key s.store := by
  rw [snapshot_eq]
  apply Dict.lookup_setAll_of_ne
  intro e mem
  obtain ⟨p, listed, rfl⟩ := List.mem_map.mp mem
  exact h p listed

end Session

end DirectiveRunner
