/-!
# Dictionaries

Dictionaries are lists of key–value pairs in increasing order of the keys, each key once. `insert`
first takes out the old entry of the key, so the two look-up equations `lookup_insert_self` and
`lookup_insert_of_ne` hold for every list, whatever its order. An `Ordered` dictionary stays so
(`Ordered.insert`), and is known by its look-ups (`Ordered.ext`). When entries are set one after the
other, the last one of a key counts (`lookup_setAll_last`).
-/

namespace DirectiveRunner.Dict

variable {κ υ : Type} [DecidableEq κ] [LT κ] [DecidableLT κ]

def lookup (k : κ) (d : List (κ × υ)) : Option υ := (d.find? (·.1 = k)).map (·.2)

def contains (k : κ) (d : List (κ × υ)) : Bool := d.any (·.1 = k)

def erase (k : κ) (d : List (κ × υ)) : List (κ × υ) := d.filter (·.1 ≠ k)

/-- Puts an entry before the first one with a greater key. -/
def place (k : κ) (v : υ) : List (κ × υ) → List (κ × υ)
  | [] => [(k, v)]
  | e :: es => if k < e.1 then (k, v) :: e :: es else e :: place k v es

def insert (k : κ) (v : υ) (d : List (κ × υ)) : List (κ × υ) := place k v (erase k d)

/-- The dictionary of the entries, where a later entry replaces an earlier one of the same key. -/
def ofList (entries : List (κ × υ)) : List (κ × υ) :=
  entries.foldl (fun d e => insert e.1 e.2 d) []

def keys (d : List (κ × υ)) : List κ := d.map (·.1)

omit [LT κ] [DecidableLT κ] in
@[simp] theorem lookup_nil (k : κ) : lookup k ([] : List (κ × υ)) = none := rfl

omit [LT κ] [DecidableLT κ] in
theorem lookup_cons (k : κ) (e : κ × υ) (d : List (κ × υ)) :
    lookup k (e :: d) = if e.1 = k then some e.2 else lookup k d := by
  by_cases h : e.1 = k <;> simp [lookup, h]

omit [LT κ] [DecidableLT κ] in
theorem lookup_erase_self (k : κ) (d : List (κ × υ)) : lookup k (erase k d) = none := by
  simp [lookup, erase]

omit [LT κ] [DecidableLT κ] in
/-- Leaving out entries of other keys changes nothing for a key. -/
theorem lookup_filter {k : κ} {keep : κ × υ → Bool} {d : List (κ × υ)}
    (h : ∀ e ∈ d, e.1 = k → keep e = true) : lookup k (d.filter keep) = lookup k d := by
  induction d with
  | nil => rfl
  | cons e d ih =>
    have ih := ih fun e' he => h e' (List.mem_cons_of_mem e he)
    by_cases kept : keep e = true
    · rw [List.filter_cons_of_pos kept, lookup_cons, lookup_cons, ih]
    · have other : e.1 ≠ k := fun same => kept (h e List.mem_cons_self same)
      rw [List.filter_cons_of_neg kept, lookup_cons, if_neg other, ih]

omit [LT κ] [DecidableLT κ] in
theorem lookup_erase_of_ne {k l : κ} (h : l ≠ k) (d : List (κ × υ)) :
    lookup l (erase k d) = lookup l d :=
  lookup_filter fun e _ same => by simpa [same] using h

theorem lookup_place_of_ne {k l : κ} (h : l ≠ k) (v : υ) (d : List (κ × υ)) :
    lookup l (place k v d) = lookup l d := by
  induction d with
  | nil => simp [place, lookup_cons, Ne.symm h]
  | cons e d ih =>
    unfold place
    split
    · simp [lookup_cons, Ne.symm h]
    · simp [lookup_cons, ih]

theorem lookup_place_self {k : κ} (v : υ) {d : List (κ × υ)} (h : lookup k d = none) :
    lookup k (place k v d) = some v := by
  induction d with
  | nil => simp [place, lookup_cons]
  | cons e d ih =>
    rw [lookup_cons] at h
    by_cases he : e.1 = k
    · simp [he] at h
    · rw [if_neg he] at h
      unfold place
      split
      · simp [lookup_cons]
      · simp [lookup_cons, he, ih h]

@[simp] theorem lookup_insert_self (k : κ) (v : υ) (d : List (κ × υ)) :
    lookup k (insert k v d) = some v :=
  lookup_place_self v (lookup_erase_self k d)

theorem lookup_insert_of_ne {k l : κ} (h : l ≠ k) (v : υ) (d : List (κ × υ)) :
    lookup l (insert k v d) = lookup l d := by
  rw [insert, lookup_place_of_ne h, lookup_erase_of_ne h]

omit [LT κ] [DecidableLT κ] in
theorem erase_eq_self {k : κ} {d : List (κ × υ)} (h : ∀ e ∈ d, e.1 ≠ k) : erase k d = d :=
  List.filter_eq_self.mpr fun e he => by simpa using h e he

omit [LT κ] [DecidableLT κ] in
theorem lookup_eq_none {k : κ} {d : List (κ × υ)} (h : ∀ e ∈ d, e.1 ≠ k) : lookup k d = none := by
  simpa [lookup] using fun a b mem => h (a, b) mem

omit [LT κ] [DecidableLT κ] in
theorem mem_of_lookup {k : κ} {v : υ} {d : List (κ × υ)} (h : lookup k d = some v) :
    (k, v) ∈ d := by
  obtain ⟨e, found, rfl⟩ := Option.map_eq_some_iff.mp h
  obtain rfl : e.1 = k := by simpa using List.find?_some found
  exact List.mem_of_find?_eq_some found

omit [DecidableEq κ] in
/-- A key that is not less than any other is put at the end. -/
theorem place_eq_append {k : κ} {d : List (κ × υ)} (h : ∀ e ∈ d, ¬k < e.1) (v : υ) :
    place k v d = d ++ [(k, v)] := by
  induction d with
  | nil => rfl
  | cons e d ih =>
    rw [place, if_neg (h e List.mem_cons_self), ih fun e' he => h e' (List.mem_cons_of_mem e he)]
    rfl

omit [DecidableEq κ] in
theorem mem_place {k : κ} {v : υ} {d : List (κ × υ)} {e : κ × υ} :
    e ∈ place k v d ↔ e = (k, v) ∨ e ∈ d := by
  induction d with
  | nil => simp [place]
  | cons e' d ih =>
    unfold place
    split
    · simp
    · rw [List.mem_cons, ih, List.mem_cons, or_left_comm]

/-- The entries of a dictionary with a key set: the new one, and the old ones of the other keys. -/
theorem mem_insert {k : κ} {v : υ} {d : List (κ × υ)} {e : κ × υ} :
    e ∈ insert k v d ↔ e = (k, v) ∨ e ∈ d ∧ e.1 ≠ k := by
  simp [insert, mem_place, erase]

theorem mem_keys_insert {k l : κ} {v : υ} {d : List (κ × υ)} :
    l ∈ keys (insert k v d) ↔ l = k ∨ l ∈ keys d := by
  simp only [keys, List.mem_map, mem_insert]
  constructor
  · rintro ⟨e, rfl | ⟨he, _⟩, rfl⟩
    · exact .inl rfl
    · exact .inr ⟨e, he, rfl⟩
  · rintro (rfl | ⟨e, he, rfl⟩)
    · exact ⟨_, .inl rfl, rfl⟩
    · by_cases same : e.1 = k
      · exact ⟨_, .inl rfl, same.symm⟩
      · exact ⟨e, .inr ⟨he, same⟩, rfl⟩

/-! ## Entries set one after the other -/

/-- The dictionary with the entries set one after the other. -/
def setAll (entries d : List (κ × υ)) : List (κ × υ) :=
  entries.foldl (fun d e => insert e.1 e.2 d) d

theorem setAll_append (es es' d : List (κ × υ)) : setAll (es ++ es') d = setAll es' (setAll es d) :=
  List.foldl_append

theorem lookup_setAll_of_ne {k : κ} {entries : List (κ × υ)} (h : ∀ e ∈ entries, e.1 ≠ k)
    (d : List (κ × υ)) : lookup k (setAll entries d) = lookup k d := by
  induction entries generalizing d with
  | nil => rfl
  | cons e es ih =>
    obtain ⟨first, later⟩ := List.forall_mem_cons.mp h
    show lookup k (setAll es (insert e.1 e.2 d)) = lookup k d
    rw [ih later, lookup_insert_of_ne (Ne.symm first)]

/-- Of the entries of one key the last one counts. -/
theorem lookup_setAll_last {k : κ} {v : υ} {before after d : List (κ × υ)}
    (h : ∀ e ∈ after, e.1 ≠ k) : lookup k (setAll (before ++ (k, v) :: after) d) = some v := by
  rw [setAll_append]
  show lookup k (setAll after (insert k v (setAll before d))) = some v
  rw [lookup_setAll_of_ne h, lookup_insert_self]

theorem mem_of_mem_setAll {e : κ × υ} {entries d : List (κ × υ)} (h : e ∈ setAll entries d) :
    e ∈ entries ∨ e ∈ d := by
  induction entries generalizing d with
  | nil => exact .inr h
  | cons e' es ih =>
    rcases ih h with later | earlier
    · exact .inl (List.mem_cons_of_mem e' later)
    · rcases mem_insert.mp earlier with rfl | ⟨old, -⟩
      · exact .inl List.mem_cons_self
      · exact .inr old

theorem mem_of_mem_ofList {e : κ × υ} {entries : List (κ × υ)} (h : e ∈ ofList entries) :
    e ∈ entries :=
  (mem_of_mem_setAll h).resolve_right List.not_mem_nil

/-! ## Order -/

omit [DecidableEq κ] [DecidableLT κ] in
/-- The entries are in the order of their keys, and each key is there once. -/
def Ordered (d : List (κ × υ)) : Prop := d.Pairwise fun e e' => e.1 ≠ e'.1 ∧ ¬e'.1 < e.1

omit [DecidableLT κ] in
theorem Ordered.mem_iff {k : κ} {v : υ} {d : List (κ × υ)} (h : Ordered d) :
    (k, v) ∈ d ↔ lookup k d = some v := by
  refine ⟨fun mem => ?_, mem_of_lookup⟩
  induction d with
  | nil => cases mem
  | cons e d ih =>
    obtain ⟨first, later⟩ := List.pairwise_cons.mp h
    rw [lookup_cons]
    rcases List.mem_cons.mp mem with rfl | mem
    · exact if_pos rfl
    · rw [if_neg (first _ mem).1, ih later mem]

omit [DecidableLT κ] in
/-- Ordered dictionaries with the same look-ups are the same. -/
theorem Ordered.ext [Std.Trichotomous (· < · : κ → κ → Prop)] {d d' : List (κ × υ)}
    (h : Ordered d) (h' : Ordered d') (same : ∀ k, lookup k d = lookup k d') : d = d' := by
  have nodup {d : List (κ × υ)} (h : Ordered d) : d.Nodup :=
    h.imp fun differ equal => differ.1 (congrArg Prod.fst equal)
  have perm : d.Perm d' := (List.perm_ext_iff_of_nodup (nodup h) (nodup h')).mpr fun e => by
    rw [h.mem_iff, h'.mem_iff, same]
  refine perm.eq_of_pairwise (fun e e' _ _ before after => ?_) h h'
  exact absurd (Std.Trichotomous.trichotomous _ _ after.2 before.2) before.1

variable [Std.Irrefl (· < · : κ → κ → Prop)] [Trans (· < · : κ → κ → Prop) (· < ·) (· < ·)]

omit [DecidableEq κ] in
theorem Ordered.place {k : κ} {d : List (κ × υ)} (h : Ordered d) (new : ∀ e ∈ d, e.1 ≠ k) (v : υ) :
    Ordered (place k v d) := by
  induction d with
  | nil => exact List.pairwise_singleton _ _
  | cons e d ih =>
    obtain ⟨first, later⟩ := List.pairwise_cons.mp h
    unfold Dict.place
    split
    · next less =>
      refine List.pairwise_cons.mpr ⟨fun e' he => ⟨(new e' he).symm, fun greater => ?_⟩, h⟩
      -- an entry after the greater key `e.1` that is less than `k` would be less than `e.1`
      have less' : e'.1 < e.1 := Trans.trans greater less
      rcases List.mem_cons.mp he with rfl | he
      · exact Std.Irrefl.irrefl _ less'
      · exact (first e' he).2 less'
    · next notLess =>
      have later := ih later fun e' he => new e' (List.mem_cons_of_mem e he)
      refine List.pairwise_cons.mpr ⟨fun e' he => ?_, later⟩
      rcases mem_place.mp he with rfl | he
      · exact ⟨new e List.mem_cons_self, notLess⟩
      · exact first e' he

theorem Ordered.insert {d : List (κ × υ)} (h : Ordered d) (k : κ) (v : υ) :
    Ordered (insert k v d) := by
  have rest : Ordered (erase k d) := List.Pairwise.filter _ h
  exact rest.place (fun e he => by simpa using (List.mem_filter.mp he).2) v

theorem Ordered.setAll {d : List (κ × υ)} (h : Ordered d) (entries : List (κ × υ)) :
    Ordered (setAll entries d) := by
  induction entries generalizing d with
  | nil => exact h
  | cons e es ih => exact ih (h.insert e.1 e.2)

end DirectiveRunner.Dict
