/-!
# Pieces of a text

Cutting a text at every occurrence of a character (`pieces`), putting pieces together again
(`joinWith`), and looking for the first occurrence of a piece of text (`breakOn?`) or the last one of a
character (`breakOnLast?`). Cutting loses nothing (`joinWith_pieces`), and a piece that is followed by
the separator is found again (`pieces_append`).
-/

namespace DirectiveRunner.Text

/-- The pieces of a text between the occurrences of `sep`; there is always at least one. -/
def pieces (sep : Char) : List Char → List (List Char)
  | [] => [[]]
  | c :: r =>
    if c = sep then [] :: pieces sep r
    else
      match pieces sep r with
      | [] => [[c]]
      | p :: ps => (c :: p) :: ps

/-- Pieces one after the other, with `sep` between each two. -/
def joinWith (sep : List Char) : List (List Char) → List Char
  | [] => []
  | [p] => p
  | p :: ps => p ++ sep ++ joinWith sep ps

/-- The rest of a text after `start`, if the text starts with it. -/
def afterStart? : List Char → List Char → Option (List Char)
  | [], cs => some cs
  | s :: ss, c :: cs => if s = c then afterStart? ss cs else none
  | _ :: _, [] => none

/-- The text before and after the first occurrence of `pat`. -/
def breakOn? (pat : List Char) : List Char → Option (List Char × List Char)
  | [] => if pat.isEmpty then some ([], []) else none
  | c :: r =>
    match afterStart? pat (c :: r) with
    | some rest => some ([], rest)
    | none => (breakOn? pat r).map fun (before, after) => (c :: before, after)

/-- The text after the last occurrence of `sep`, and the text before that occurrence. -/
def breakOnLast? (sep : Char) (cs : List Char) : Option (List Char × List Char) :=
  (breakOn? [sep] cs.reverse).map fun (after, before) => (before.reverse, after.reverse)

theorem pieces_ne_nil (sep : Char) (cs : List Char) : pieces sep cs ≠ [] := by
  cases cs with
  | nil => simp [pieces]
  | cons c r =>
    unfold pieces
    split
    · simp
    · split <;> simp

theorem pieces_append {sep : Char} {p : List Char} (h : sep ∉ p) (r : List Char) :
    pieces sep (p ++ sep :: r) = p :: pieces sep r := by
  induction p with
  | nil => simp [pieces]
  | cons c p ih =>
    simp only [List.mem_cons, not_or] at h
    simp [pieces, Ne.symm h.1, ih h.2]

theorem pieces_of_not_mem {sep : Char} {p : List Char} (h : sep ∉ p) : pieces sep p = [p] := by
  induction p with
  | nil => rfl
  | cons c p ih =>
    simp only [List.mem_cons, not_or] at h
    simp [pieces, Ne.symm h.1, ih h.2]

/-- Cutting at one occurrence of the separator first changes nothing. -/
theorem pieces_append_sep (sep : Char) (cs r : List Char) :
    pieces sep (cs ++ sep :: r) = pieces sep cs ++ pieces sep r := by
  induction cs with
  | nil => simp [pieces]
  | cons c cs ih =>
    rw [List.cons_append, pieces, ih, pieces]
    split
    · rfl
    · cases hp : pieces sep cs with
      | nil => exact absurd hp (pieces_ne_nil _ _)
      | cons p ps => rfl

theorem mem_of_mem_pieces {sep c : Char} {p cs : List Char} (h : p ∈ pieces sep cs) (hc : c ∈ p) :
    c ∈ cs ∧ c ≠ sep := by
  induction cs generalizing p with
  | nil => simp_all [pieces]
  | cons c' r ih =>
    unfold pieces at h
    split at h
    · rcases List.mem_cons.mp h with rfl | later
      · cases hc
      · exact ⟨List.mem_cons_of_mem _ (ih later hc).1, (ih later hc).2⟩
    · next other =>
      cases hp : pieces sep r with
      | nil => exact absurd hp (pieces_ne_nil _ _)
      | cons q qs =>
        simp only [hp] at h ih
        rcases List.mem_cons.mp h with rfl | later
        · rcases List.mem_cons.mp hc with rfl | hc
          · exact ⟨List.mem_cons_self, other⟩
          · exact ⟨List.mem_cons_of_mem _ (ih List.mem_cons_self hc).1, (ih List.mem_cons_self hc).2⟩
        · have ih := ih (List.mem_cons_of_mem q later) hc
          exact ⟨List.mem_cons_of_mem _ ih.1, ih.2⟩

theorem joinWith_cons {sep p : List Char} {ps : List (List Char)} (h : ps ≠ []) :
    joinWith sep (p :: ps) = p ++ sep ++ joinWith sep ps := by
  cases ps with
  | nil => exact absurd rfl h
  | cons q qs => rfl

theorem joinWith_concat {sep : List Char} {ps : List (List Char)} (h : ps ≠ []) (p : List Char) :
    joinWith sep (ps ++ [p]) = joinWith sep ps ++ sep ++ p := by
  induction ps with
  | nil => exact absurd rfl h
  | cons q qs ih =>
    cases qs with
    | nil => rfl
    | cons q' qs =>
      rw [List.cons_append, joinWith_cons (by simp), ih (by simp),
        @joinWith_cons sep q (q' :: qs) (by simp)]
      simp only [List.append_assoc]

/-- Pieces without the separator are found again. -/
theorem pieces_joinWith {sep : Char} {ps : List (List Char)} (h : ∀ p ∈ ps, sep ∉ p)
    (nonempty : ps ≠ []) : pieces sep (joinWith [sep] ps) = ps := by
  induction ps with
  | nil => exact absurd rfl nonempty
  | cons p ps ih =>
    obtain ⟨first, later⟩ := List.forall_mem_cons.mp h
    cases ps with
    | nil => exact pieces_of_not_mem first
    | cons q qs =>
      rw [joinWith_cons (by simp), List.append_assoc, List.singleton_append, pieces_append first,
        ih later (by simp)]

theorem joinWith_pieces (sep : Char) (cs : List Char) : joinWith [sep] (pieces sep cs) = cs := by
  induction cs with
  | nil => rfl
  | cons c r ih =>
    unfold pieces
    split
    · next h => rw [joinWith_cons (pieces_ne_nil _ _), ih, h]; rfl
    · cases hp : pieces sep r with
      | nil => exact absurd hp (pieces_ne_nil _ _)
      | cons p ps =>
        rw [hp] at ih
        cases ps with
        | nil => simp only [joinWith] at ih ⊢; rw [ih]
        | cons q qs =>
          rw [joinWith_cons (by simp)] at ih ⊢
          simp only [List.cons_append, ih]

theorem afterStart?_eq_some_iff {start cs rest : List Char} :
    afterStart? start cs = some rest ↔ cs = start ++ rest := by
  induction start generalizing cs with
  | nil => simp [afterStart?]
  | cons s ss ih =>
    cases cs with
    | nil => simp [afterStart?]
    | cons c cs =>
      simp only [afterStart?, List.cons_append, List.cons.injEq]
      split
      · next h => simp [ih, h]
      · next h => simp [Ne.symm h]

theorem breakOn?_eq_some {pat cs before after : List Char}
    (h : breakOn? pat cs = some (before, after)) : cs = before ++ pat ++ after := by
  induction cs generalizing before with
  | nil =>
    unfold breakOn? at h
    split at h <;> simp_all
  | cons c r ih =>
    unfold breakOn? at h
    split at h
    · next rest hr =>
      simp only [Option.some.injEq, Prod.mk.injEq] at h
      obtain ⟨rfl, rfl⟩ := h
      simpa using afterStart?_eq_some_iff.1 hr
    · obtain ⟨⟨b, a⟩, hb, he⟩ := Option.map_eq_some_iff.1 h
      simp only [Prod.mk.injEq] at he
      obtain ⟨rfl, rfl⟩ := he
      simp [ih hb]

theorem breakOn?_append {sep : Char} {before : List Char} (h : sep ∉ before) (after : List Char) :
    breakOn? [sep] (before ++ sep :: after) = some (before, after) := by
  induction before with
  | nil => simp [breakOn?, afterStart?]
  | cons c r ih =>
    simp only [List.mem_cons, not_or] at h
    simp [breakOn?, afterStart?, h.1, ih h.2]

/-- A text is cut at the first separator. -/
theorem breakOn?_eq_some_iff {sep : Char} {cs before after : List Char} :
    breakOn? [sep] cs = some (before, after) ↔ cs = before ++ sep :: after ∧ sep ∉ before := by
  constructor
  · intro h
    have split : cs = before ++ sep :: after := by simpa using breakOn?_eq_some h
    refine ⟨split, fun earlier => ?_⟩
    -- an earlier separator would be the one at which the text is cut
    obtain ⟨first, rest, rfl, new⟩ := List.eq_append_cons_of_mem earlier
    have cut := breakOn?_append new (rest ++ sep :: after)
    rw [split, List.append_assoc, List.cons_append, cut, Option.some.injEq, Prod.mk.injEq] at h
    simp at h
  · rintro ⟨rfl, new⟩
    exact breakOn?_append new after

theorem breakOnLast?_eq_some {sep : Char} {cs before after : List Char}
    (h : breakOnLast? sep cs = some (before, after)) : cs = before ++ sep :: after := by
  obtain ⟨⟨b, a⟩, found, same⟩ := Option.map_eq_some_iff.mp h
  obtain ⟨rfl, rfl⟩ := Prod.mk.inj same
  have mirrored := congrArg List.reverse (breakOn?_eq_some found)
  simpa using mirrored

/-- The last occurrence of a separator is the one that no other comes after. -/
theorem breakOnLast?_append {sep : Char} {after : List Char} (h : sep ∉ after)
    (before : List Char) : breakOnLast? sep (before ++ sep :: after) = some (before, after) := by
  have mirrored : (before ++ sep :: after).reverse = after.reverse ++ sep :: before.reverse := by
    simp
  rw [breakOnLast?, mirrored, breakOn?_append (by simpa using h)]
  simp

end DirectiveRunner.Text

namespace DirectiveRunner

def joined (sep : String) (texts : List String) : String :=
  .ofList (Text.joinWith sep.toList (texts.map String.toList))

end DirectiveRunner
