import DirectiveRunner.Cache.Cache
/-!
# Stores are read back

A store is a text with a line for each file. Nothing in a path can shift the border between the path and
what was seen, because the border is the last `=` of the line and an observation has none; nothing can
shift the border between two lines, because an observation stands at the end of each and neither starts
nor ends a line end. So what was written is what is read:

* `Observation.read?_text` — an observation is read back from its text.
* `Observations.readLine?_line` — a line is read back as the path and the observation it was written for.
* `Observations.read_write_eq_iff` — a store is read back as the observations it was written for exactly if
  these are `Storable`: in order, each under the components of its path, and with paths of one line.
  Remembering an observation keeps them so (`Storable.remember`), and nothing else can be read from a text
  (`storable_read`).
-/

namespace DirectiveRunner

/-! ## Observations -/

namespace Observation

/-- The characters of an observation are digits, apart from the mark of an absent file. -/
theorem isDigitOf_of_mem_text {crc : UInt32} {c : Char} (h : c ∈ text (.present crc)) :
    Text.isDigitOf 16 c = true := by
  rcases List.mem_append.mp h with zero | digit
  · obtain ⟨_, rfl⟩ := List.mem_replicate.mp zero
    decide
  · exact Text.isDigitOf_of_mem_digits (by omega) (by omega) digit

theorem text_ne_nil (seen : Observation) : seen.text ≠ [] := by
  cases seen with
  | present crc =>
    have digits : Text.digits 16 crc.toNat ≠ [] := Nat.toDigits_ne_nil
    simp [text, Text.padded, digits]
  | absent => simp [text]

/-- An observation is written without blanks, separators and line ends. -/
theorem plain_of_mem_text {seen : Observation} {c : Char} (h : c ∈ seen.text) :
    Text.isBlank c = false ∧ c ≠ '=' ∧ c ≠ '+' ∧ c ≠ '\n' ∧ c ≠ '\r' := by
  cases seen with
  | present crc =>
    have range := Text.toNat_of_isDigitOf (isDigitOf_of_mem_text h)
    have other {c' : Char} (outside : ¬((48 ≤ c'.toNat ∧ c'.toNat ≤ 57) ∨
        (97 ≤ c'.toNat ∧ c'.toNat ≤ 122) ∨ (65 ≤ c'.toNat ∧ c'.toNat ≤ 90))) : c ≠ c' :=
      fun same => outside (same ▸ range)
    refine ⟨?_, other (by decide), other (by decide), other (by decide), other (by decide)⟩
    have notBlank : ¬Text.isBlank c = true := by
      simp only [Text.isBlank, Bool.or_eq_true, Bool.and_eq_true, decide_eq_true_eq]
      omega
    simpa using notBlank
  | absent =>
    obtain rfl := List.mem_singleton.mp h
    decide

/-- Nothing is trimmed off an observation. -/
theorem trim_text (seen : Observation) : Text.trim seen.text = seen.text := by
  refine Text.trim_eq_self ?_
  rw [Text.hasBlankEnd, Bool.or_eq_false_iff, Option.any_eq_false, Option.any_eq_false]
  refine ⟨fun c first => ?_, fun c last => ?_⟩
  · simp [(plain_of_mem_text (List.mem_of_head? first)).1]
  · simp [(plain_of_mem_text (List.mem_of_getLast? last)).1]

theorem readChecksum?_text (crc : UInt32) : readChecksum? (text (.present crc)) = some crc := by
  have number : Text.ofDigits? 16 (text (.present crc)) = some crc.toNat :=
    Text.ofDigits?_padded (by omega) (by omega) 8 crc.toNat
  have unsigned : ∀ cs, text (.present crc) ≠ '+' :: cs := by
    intro cs signed
    have sign : '+' ∈ text (.present crc) := signed ▸ List.mem_cons_self
    exact (plain_of_mem_text sign).2.2.1 rfl
  unfold readChecksum?
  split
  · next cs signed => exact absurd signed (unsigned cs)
  · simp [number, crc.toNat_lt_size]

theorem read?_text (seen : Observation) : read? seen.text = some seen := by
  rw [read?, trim_text]
  cases seen with
  | present crc =>
    have unmarked : text (.present crc) ≠ ['-'] := fun mark => by
      have digit : '-' ∈ text (.present crc) := by simp [mark]
      exact absurd (isDigitOf_of_mem_text digit) (by decide)
    rw [if_neg unmarked, readChecksum?_text, Option.map_some]
  | absent => rfl

end Observation

/-! ## Lines -/

namespace Observations

/-- A line is read back as what it was written for. -/
theorem readLine?_line (p : Path) (seen : Observation) :
    readLine? (line p seen) = some (p, seen) := by
  have border : '=' ∉ seen.text := fun mem => (Observation.plain_of_mem_text mem).2.1 rfl
  have written : line p seen = p.chars ++ '=' :: seen.text := by simp [line]
  have visible : Text.allBlank (line p seen) = false := by
    rw [written, Text.allBlank, List.all_append, List.all_cons]
    simp [show Text.isBlank '=' = false by decide]
  have path : Path.ofChars p.chars = p := by simp [Path.ofChars, Path.chars]
  rw [readLine?, if_neg (by simp [visible]), written, Text.breakOnLast?_append border]
  simp [Observation.read?_text, path]

/-- A line of a path without line feeds is one line. -/
theorem line_isLine {p : Path} (h : '\n' ∉ p.chars) (seen : Observation) :
    '\n' ∉ line p seen ∧ (line p seen).getLast? ≠ some '\r' := by
  constructor
  · have observed : '\n' ∉ seen.text := fun mem => (Observation.plain_of_mem_text mem).2.2.2.1 rfl
    simp [line, h, observed]
  · intro final
    have last := List.getLast?_eq_some_getLast (Observation.text_ne_nil seen)
    rw [line, List.getLast?_append, last, Option.some_or] at final
    exact (Observation.plain_of_mem_text (List.mem_of_getLast? (last.trans final))).2.2.2.2 rfl

/-! ## Stores -/

/-- Observations as a cache makes them, of paths that are written on one line. -/
structure Storable (o : Observations) : Prop where
  ordered : Dict.Ordered o
  /-- The components of a path are its key. -/
  keyed : ∀ e ∈ o, e.2.1.components = e.1
  oneLine : ∀ e ∈ o, '\n' ∉ e.2.1.chars

theorem Storable.nil : Storable [] := ⟨.nil, by simp, by simp⟩

/-- The spelling of a path that is remembered is its own, or that of an entry that was there. -/
theorem spelling_cases (o : Observations) (p : Path) :
    ((Dict.lookup p.components o).map (·.1)).getD p = p ∨
      ∃ e ∈ o, e.1 = p.components ∧ ((Dict.lookup p.components o).map (·.1)).getD p = e.2.1 := by
  cases found : Dict.lookup p.components o with
  | none => exact .inl rfl
  | some e =>
    obtain ⟨entry, first, rfl⟩ := Option.map_eq_some_iff.mp found
    have key : entry.1 = p.components := by simpa using List.find?_some first
    exact .inr ⟨entry, List.mem_of_find?_eq_some first, key, rfl⟩

/-- Remembering what was seen of a path on one line. -/
theorem Storable.remember {o : Observations} (h : o.Storable) {p : Path} (line : '\n' ∉ p.chars)
    (seen : Observation) : (o.remember p seen).Storable := by
  have spelled := spelling_cases o p
  refine ⟨h.ordered.insert _ _, fun e mem => ?_, fun e mem => ?_⟩
  · rcases Dict.mem_insert.mp mem with rfl | ⟨old, _⟩
    · rcases spelled with same | ⟨e, old, key, same⟩
      · rw [same]
      · rw [same, h.keyed e old, key]
    · exact h.keyed e old
  · rcases Dict.mem_insert.mp mem with rfl | ⟨old, _⟩
    · rcases spelled with same | ⟨e, old, _, same⟩
      · rwa [same]
      · rw [same]
        exact h.oneLine e old
    · exact h.oneLine e old

/-- Entries that come after all others in order are put at the end one by one. -/
theorem foldl_remember {earlier o : Observations} (ordered : Dict.Ordered (earlier ++ o))
    (keyed : ∀ e ∈ o, e.2.1.components = e.1) :
    o.foldl (fun o e => o.remember e.2.1 e.2.2) earlier = earlier ++ o := by
  induction o generalizing earlier with
  | nil => simp
  | cons e o ih =>
    obtain ⟨key, keyed⟩ := List.forall_mem_cons.mp keyed
    have before : ∀ e' ∈ earlier, e'.1 ≠ e.1 ∧ ¬e.1 < e'.1 := fun e' mem =>
      (List.pairwise_append.mp ordered).2.2 e' mem e List.mem_cons_self
    have appended : earlier.remember e.2.1 e.2.2 = earlier ++ [e] := by
      have new : ∀ e' ∈ earlier, e'.1 ≠ e.1 := fun e' mem => (before e' mem).1
      rw [Observations.remember, key, Dict.lookup_eq_none new, Dict.insert, Dict.erase_eq_self new,
        Dict.place_eq_append fun e' mem => (before e' mem).2]
      rfl
    rw [List.foldl_cons, appended, ih (by simpa using ordered) keyed, List.append_assoc,
      List.singleton_append]

/-- **Stores are read back.** The text of a store is read as the observations it was written for. -/
theorem read_write {o : Observations} (h : o.Storable) : read (write o) = o := by
  have lines : Text.lines (write o) = o.map fun e => line e.2.1 e.2.2 := by
    refine Text.lines_unlines fun l mem => ?_
    obtain ⟨e, old, rfl⟩ := List.mem_map.mp mem
    exact line_isLine (h.oneLine e old) e.2.2
  rw [read, lines, List.foldl_map]
  simp only [readLine?_line]
  exact foldl_remember (by simpa using h.ordered) h.keyed

/-- The path of a line that is read is written on one line. -/
theorem oneLine_of_readLine? {l : List Char} {p : Path} {seen : Observation} (line : '\n' ∉ l)
    (h : readLine? l = some (p, seen)) : '\n' ∉ p.chars := by
  unfold readLine? at h
  split at h
  · cases h
  · obtain ⟨⟨path, rest⟩, cut, h⟩ := Option.bind_eq_some_iff.mp h
    obtain ⟨seen', -, same⟩ := Option.bind_eq_some_iff.mp h
    obtain ⟨rfl, -⟩ := Prod.mk.inj (Option.some.inj same)
    rw [Text.breakOnLast?_eq_some cut] at line
    rw [Path.chars_ofChars]
    exact fun feed => line (List.mem_append_left _ feed)

/-- Whatever the text of a store is, what is read from it can be stored. -/
theorem storable_read (text : List Char) : (read text).Storable := by
  unfold read
  -- the observations read from the lines so far are storable, whatever lines are still to come
  refine List.foldlRecOn _ _ .nil fun o storable l mem => ?_
  split
  · next p seen said =>
    exact storable.remember (oneLine_of_readLine? (Text.oneLine_of_mem_lines mem) said) seen
  · exact storable

/-- Stores are read back for what is storable, and for nothing else. -/
theorem read_write_eq_iff {o : Observations} : read (write o) = o ↔ o.Storable := by
  constructor
  · intro same
    rw [← same]
    exact storable_read _
  · exact read_write

end Observations

end DirectiveRunner
