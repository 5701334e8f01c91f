import DirectiveRunner.Text.Pieces
/-!
# Lines

A text is cut into lines at its line feeds. A carriage return right before a line feed belongs to
the line end, and a text that ends with a line feed has no empty line after it. `unlines` writes
lines with a line feed after each, and `lines_unlines` reads them back.
-/

namespace DirectiveRunner.Text

/-- Takes one carriage return off the end. -/
def dropFinalReturn (l : List Char) : List Char :=
  match l.getLast? with
  | some '\r' => l.dropLast
  | _ => l

/-- Reads the pieces between line feeds as lines: the last piece is a line only if it is not
empty, and the others lose the carriage return before their line feed. -/
def linesOfPieces : List (List Char) → List (List Char)
  | [] => []
  | [l] => if l.isEmpty then [] else [l]
  | l :: ls => dropFinalReturn l :: linesOfPieces ls

def lines (cs : List Char) : List (List Char) := linesOfPieces (pieces '\n' cs)

/-- Lines written one after the other, each ended by a line feed. -/
def unlines (ls : List (List Char)) : List Char := ls.flatMap (· ++ ['\n'])

theorem dropFinalReturn_eq_self {l : List Char} (h : l.getLast? ≠ some '\r') :
    dropFinalReturn l = l := by
  unfold dropFinalReturn
  split <;> simp_all

/-- Lines that hold no line feed and do not end in a carriage return are read back as written. -/
theorem lines_unlines {ls : List (List Char)}
    (h : ∀ l ∈ ls, '\n' ∉ l ∧ l.getLast? ≠ some '\r') : lines (unlines ls) = ls := by
  induction ls with
  | nil => rfl
  | cons l ls ih =>
    have hl := h l (by simp)
    have ih := ih fun l' hl' => h l' (by simp [hl'])
    have key : unlines (l :: ls) = l ++ '\n' :: unlines ls := by simp [unlines]
    unfold lines at ih ⊢
    rw [key, pieces_append hl.1]
    cases hp : pieces '\n' (unlines ls) with
    | nil => exact absurd hp (pieces_ne_nil _ _)
    | cons p ps =>
      rw [hp] at ih
      simp [linesOfPieces, dropFinalReturn_eq_self hl.2, ih]

theorem sublist_dropFinalReturn (l : List Char) : (dropFinalReturn l).Sublist l := by
  unfold dropFinalReturn
  split
  · exact List.dropLast_sublist l
  · exact List.Sublist.refl l

theorem exists_piece_of_mem {l : List Char} {ps : List (List Char)} (h : l ∈ linesOfPieces ps) :
    ∃ p ∈ ps, l.Sublist p := by
  fun_induction linesOfPieces ps with
  | case1 => cases h
  | case2 p empty => cases h
  | case3 p filled => exact ⟨p, List.mem_singleton_self p, List.mem_singleton.mp h ▸ .refl l⟩
  | case4 p ps many ih =>
    rcases List.mem_cons.mp h with rfl | later
    · exact ⟨p, List.mem_cons_self, sublist_dropFinalReturn p⟩
    · obtain ⟨q, mem, kept⟩ := ih later
      exact ⟨q, List.mem_cons_of_mem p mem, kept⟩

theorem oneLine_of_mem_lines {l cs : List Char} (h : l ∈ lines cs) : '\n' ∉ l := by
  intro feed
  obtain ⟨p, piece, kept⟩ := exists_piece_of_mem h
  exact (mem_of_mem_pieces piece (kept.subset feed)).2 rfl

end DirectiveRunner.Text

namespace DirectiveRunner

def linesOf (s : String) : List String := (Text.lines s.toList).map .ofList

end DirectiveRunner
