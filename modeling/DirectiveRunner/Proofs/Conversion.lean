import DirectiveRunner.Proofs.Grouping
import Mathlib.Data.List.Nodup
/-!
# What becomes of the entries of a mapping

A mapping becomes a map by the texts of its keys (`Data.keyText`), and keys that differ may have the
same text: of the entries of one text the last one is kept (`Becomes`). So nothing of a mapping is
lost exactly if the texts of its keys differ, and nothing of a document is, at any depth, if they do
in all its mappings (`toValue_keeps`).
-/

namespace DirectiveRunner

/-! ## Dictionaries of lists -/

namespace Dict

variable {κ υ : Type} [DecidableEq κ] {es : List (κ × υ)} {k : κ} {v : υ}

omit [DecidableEq κ] in
/-- `v` is the last value of a key in a list of entries. -/
def LastOf (es : List (κ × υ)) (k : κ) (v : υ) : Prop :=
  ∃ before after, es = before ++ (k, v) :: after ∧ ∀ e ∈ after, e.1 ≠ k

/-- A key that occurs has a last value. -/
theorem exists_lastOf (h : ∃ e ∈ es, e.1 = k) : ∃ v, LastOf es k v := by
  induction es with
  | nil => simp at h
  | cons e es ih =>
    by_cases later : ∃ e ∈ es, e.1 = k
    · obtain ⟨v, before, after, rfl, last⟩ := ih later
      exact ⟨v, e :: before, after, rfl, last⟩
    · obtain ⟨e', mem, rfl⟩ := h
      rcases List.mem_cons.mp mem with rfl | mem
      · exact ⟨e'.2, [], es, rfl, fun e mem same => later ⟨e, mem, same⟩⟩
      · exact absurd ⟨e', mem, rfl⟩ later

variable [LT κ] [DecidableLT κ] [Std.Irrefl (· < · : κ → κ → Prop)]
  [Trans (· < · : κ → κ → Prop) (· < ·) (· < ·)]

theorem Ordered.ofList (es : List (κ × υ)) : Ordered (ofList es) :=
  Ordered.setAll List.Pairwise.nil es

/-- The dictionary of some entries has the last entry of each key. -/
theorem mem_ofList_iff : (k, v) ∈ ofList es ↔ LastOf es k v := by
  have kept {v : υ} (last : LastOf es k v) : lookup k (Dict.ofList es) = some v := by
    obtain ⟨before, after, rfl, others⟩ := last
    exact lookup_setAll_last others
  rw [(Ordered.ofList es).mem_iff]
  refine ⟨fun found => ?_, kept⟩
  obtain ⟨v', last⟩ := exists_lastOf ⟨_, mem_of_mem_ofList (mem_of_lookup found), rfl⟩
  obtain rfl : v = v' := Option.some.inj (found.symm.trans (kept last))
  exact last

/-- The dictionary of some entries has just these entries if no key occurs twice. -/
theorem ofList_perm_iff : (ofList es).Perm es ↔ (keys es).Nodup := by
  have distinct : (keys (Dict.ofList es)).Nodup :=
    List.pairwise_map.mpr ((Ordered.ofList es).imp fun differ => differ.1)
  refine ⟨fun perm => (perm.map _).nodup_iff.mp distinct, fun single => ?_⟩
  refine (List.perm_ext_iff_of_nodup distinct.of_map single.of_map).mpr fun e => ?_
  refine ⟨mem_of_mem_ofList, fun mem => ?_⟩
  obtain ⟨before, after, rfl⟩ := List.append_of_mem mem
  refine mem_ofList_iff.mpr ⟨before, after, rfl, fun e' later same => ?_⟩
  rw [keys, List.map_append, List.map_cons] at single
  have apart := (List.nodup_cons.mp (List.nodup_append.mp single).2.1).1
  exact apart (same ▸ List.mem_map_of_mem later)

end Dict

/-! ## Parts -/

/-- A value is a part of another one, at any depth. -/
inductive Value.Inside (v : Value) : Value → Prop where
  | refl : Inside v v
  /-- A part of an element of a list. -/
  | item {u : Value} {items : List Value} (mem : u ∈ items) (inside : Inside v u) :
    Inside v (.list items)
  /-- A part of a value in a map. -/
  | entry {e : String × Value} {entries : Bindings} (mem : e ∈ entries) (inside : Inside v e.2) :
    Inside v (.map entries)

namespace Yaml

/-- Data are a part of other data, at any depth; keys do not count. -/
inductive Data.Inside (d : Data) : Data → Prop where
  | refl : Inside d d
  /-- A part of an element of a sequence. -/
  | item {e : Data} {items : List Data} (mem : e ∈ items) (inside : Inside d e) :
    Inside d (.sequence items)
  /-- A part of a value of a mapping. -/
  | entry {e : Data × Data} {entries : List (Data × Data)} (mem : e ∈ entries)
    (inside : Inside d e.2) : Inside d (.mapping entries)
  /-- A part of what has a tag. -/
  | tagged {e : Data} {tag : List Char} (inside : Inside d e) : Inside d (.tagged tag e)

/-- The text that a key becomes: a text is kept, anything else is shown as its value is. -/
def Data.keyText : Data → String
  | .str t => .ofList t
  | k => k.toValue.text

/-- The texts of the keys of a mapping. -/
def keyTexts (entries : List (Data × Data)) : List String := entries.map fun e => e.1.keyText

/-- The entry of a map that an entry of a mapping is converted to. -/
def converted (e : Data × Data) : String × Value := (e.1.keyText, e.2.toValue)

/-- The entries of the map that a mapping becomes: one for each text of a key, with the value of the
last entry with this text. -/
structure Becomes (entries : List (Data × Data)) (es : Bindings) : Prop where
  ordered : Dict.Ordered es
  /-- The last entry of each text is kept. -/
  mem_iff (text : String) (v : Value) : (text, v) ∈ es ↔ ∃ before k d after,
    entries = before ++ (k, d) :: after ∧ k.keyText = text ∧ d.toValue = v ∧
      ∀ e ∈ after, e.1.keyText ≠ text
  /-- All entries are kept exactly if no two keys have the same text. -/
  perm_iff : es.Perm (entries.map converted) ↔ (keyTexts entries).Nodup

variable {d e : Data} {entries : List (Data × Data)} {es : Bindings} {text : String} {v : Value}

theorem allToValues_eq (items : List Data) : allToValues items = items.map Data.toValue := by
  induction items with
  | nil => rfl
  | cons d ds ih => rw [allToValues, ih, List.map_cons]

theorem pairsToValues_eq (entries : List (Data × Data)) :
    pairsToValues entries = entries.map converted := by
  induction entries with
  | nil => rfl
  | cons e es ih =>
    obtain ⟨k, v⟩ := e
    rw [List.map_cons, ← ih]
    cases k <;> rfl

theorem toValue_mapping (entries : List (Data × Data)) :
    (Data.mapping entries).toValue = .map (Dict.ofList (entries.map converted)) := by
  rw [Data.toValue, pairsToValues_eq]

theorem lastOf_converted_iff : Dict.LastOf (entries.map converted) text v ↔
    ∃ before k d after, entries = before ++ (k, d) :: after ∧ k.keyText = text ∧ d.toValue = v ∧
      ∀ e ∈ after, e.1.keyText ≠ text := by
  constructor
  · rintro ⟨before, after, split, last⟩
    obtain ⟨before', rest, rfl, rfl, tail⟩ := List.map_eq_append_iff.mp split
    obtain ⟨⟨k, d⟩, after', rfl, same, rfl⟩ := List.map_eq_cons_iff.mp tail
    obtain ⟨rfl, rfl⟩ := Prod.mk.inj same
    exact ⟨before', k, d, after', rfl, rfl, rfl, fun e mem => last _ (List.mem_map_of_mem mem)⟩
  · rintro ⟨before, k, d, after, rfl, rfl, rfl, last⟩
    refine ⟨before.map converted, after.map converted, by simp [converted], fun e mem => ?_⟩
    obtain ⟨e', later, rfl⟩ := List.mem_map.mp mem
    exact last e' later

theorem becomes (entries : List (Data × Data)) :
    Becomes entries (Dict.ofList (entries.map converted)) where
  ordered := Dict.Ordered.ofList _
  mem_iff _ _ := Dict.mem_ofList_iff.trans lastOf_converted_iff
  perm_iff := by
    rw [Dict.ofList_perm_iff, Dict.keys, List.map_map]
    rfl

/-- Where no two keys of a mapping have the same text, every part of the data becomes a part of the
value. -/
theorem Data.Inside.toValue (h : e.Inside d)
    (distinct : ∀ entries, (Data.mapping entries).Inside d → (keyTexts entries).Nodup) :
    e.toValue.Inside d.toValue := by
  induction h with
  | refl => exact .refl
  | item mem _ ih =>
    rw [Data.toValue, allToValues_eq]
    exact .item (List.mem_map_of_mem mem)
      (ih fun entries inside => distinct entries (.item mem inside))
  | @entry e' entries' mem _ ih =>
    have all := (becomes entries').perm_iff.mpr (distinct entries' .refl)
    have kept : converted e' ∈ Dict.ofList (entries'.map converted) :=
      all.mem_iff.mpr (List.mem_map_of_mem mem)
    rw [toValue_mapping]
    exact .entry kept (ih fun entries inside => distinct entries (.entry mem inside))
  | tagged _ ih =>
    rw [Data.toValue]
    exact ih fun entries inside => distinct entries (.tagged inside)

/-! ## Parameters -/

theorem readParameters_eq_ok_iff {cs : List Char} (read : read? cs = some d) :
    Directive.readParameters cs = .ok es ↔ d.toValue = .map es := by
  rw [Directive.readParameters, read, Option.map_some]
  cases d.toValue <;> simp

/-- The parameters of a directive are the value of what its map stands for, unless one is reserved. -/
theorem parameters_of_ofRaw_iff {r : Directive.Raw} {f : Directive.Form} {cs : List Char}
    (form : Directive.readForm? r.text = some f) (braces : f.parameters = some cs)
    (read : read? cs = some d) :
    (∃ directive, Directive.ofRaw r = .ok directive ∧ directive.parameters = es) ↔
      d.toValue = .map es ∧ Dict.contains referenceKey es = false := by
  have given : f.readParameters = Directive.readParameters cs := by
    rw [Directive.Form.readParameters, braces]
  simp only [Directive.ofRaw_eq_ok_iff, form, Option.some.injEq, exists_eq_left',
    Directive.ofForm_eq_ok_iff, given, readParameters_eq_ok_iff read]
  constructor
  · rintro ⟨_, ⟨parameters, value, unreserved, rfl⟩, rfl⟩
    exact ⟨value, unreserved⟩
  · rintro ⟨value, unreserved⟩
    exact ⟨_, ⟨es, value, unreserved, rfl⟩, rfl⟩

/-- **Converted mappings.** The map that a mapping becomes has one entry for each text of a key, with
the value of the last entry of this text, so it has all entries exactly if no two keys have the same
text. If this holds of all mappings in some data, none of them is lost in the value. A directive whose
map stands for the data is read with the entries of the value as its parameters, unless one is
reserved. -/
theorem toValue_keeps (inside : (Data.mapping entries).Inside d) :
    ∃ es, (Data.mapping entries).toValue = .map es ∧ Becomes entries es ∧
      ((∀ entries', (Data.mapping entries').Inside d → (keyTexts entries').Nodup) →
        (Value.map es).Inside d.toValue) ∧
      ∀ r f cs parameters, Directive.readForm? r.text = some f → f.parameters = some cs →
        read? cs = some d →
        ((∃ directive, Directive.ofRaw r = .ok directive ∧ directive.parameters = parameters) ↔
          d.toValue = .map parameters ∧
            Dict.contains referenceKey parameters = false) := by
  refine ⟨_, toValue_mapping entries, becomes entries, fun distinct => ?_,
    fun r f cs parameters form braces read => parameters_of_ofRaw_iff form braces read⟩
  rw [← toValue_mapping]
  exact inside.toValue distinct

/-- A mapping in the parameters of a directive whose keys are a number and a text. -/
theorem toValue_keeps_nested :
    let inner : List (Data × Data) := [(.int 1, .str ['a']), (.str ['2'], .str ['b'])]
    let d : Data := .mapping [(.str ['m'], .mapping inner)]
    let es : Bindings := [("1", .str "a"), ("2", .str "b")]
    (Data.mapping inner).Inside d ∧ (keyTexts inner).Nodup ∧ Becomes inner es ∧
      (Value.map es).Inside d.toValue ∧
      Directive.extract ["% arara: count: \x7b m: \x7b 1: a, \"2\": b \x7d \x7d"] false .tex =
        .ok [⟨"count", [("m", .map es)], .none, [1]⟩] := by
  intro inner d es
  have inside : (Data.mapping inner).Inside d := .entry List.mem_cons_self .refl
  have distinct : ∀ entries', (Data.mapping entries').Inside d → (keyTexts entries').Nodup := by
    intro entries' inside
    simp only [d, inner] at inside
    cases inside with
    | refl => decide +kernel
    | entry mem inside =>
      obtain rfl := List.mem_singleton.mp mem
      cases inside with
      | refl => decide +kernel
      | entry mem inside =>
        rcases List.mem_pair.mp mem with rfl | rfl <;> cases inside
  obtain ⟨es', value, becomes, kept, -⟩ := toValue_keeps inside
  obtain rfl : es' = es := Value.map.inj (value.symm.trans (by decide +kernel))
  exact ⟨inside, distinct inner inside, becomes, kept distinct, by decide +kernel⟩

/-- Keys that differ may have the same text, and then the first entry is lost. -/
theorem toValue_collides :
    let entries : List (Data × Data) := [(.int 1, .str ['a']), (.str ['1'], .str ['b'])]
    distinctKeys entries = true ∧ (Data.mapping entries).toValue = .map [("1", .str "b")] ∧
      Directive.extract ["% arara: count: \x7b 1: a, \"1\": b \x7d"] false .tex =
        .ok [⟨"count", [("1", .str "b")], .none, [1]⟩] := by
  decide +kernel

end Yaml

end DirectiveRunner
