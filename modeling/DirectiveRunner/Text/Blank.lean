/-!
# White space and the ends of a text

A character is *blank* when Unicode gives it the property `White_Space`; texts are trimmed and
split at blanks in this sense everywhere in the library. Text is worked on as a list of characters,
and the functions on `String` at the end of the file go through that list.

Trimming removes blanks at the ends only: a text with none there is left alone (`trim_eq_self`),
nothing is left of a text of blanks (`trim_of_allBlank`), and more blanks at the end change nothing
(`trim_append_of_allBlank`).
-/

namespace DirectiveRunner.Text

/-- The code points with the property `White_Space`. -/
def isBlank (c : Char) : Bool :=
  let n := c.toNat
  (0x09 ≤ n && n ≤ 0x0D) || n = 0x20 || n = 0x85 || n = 0xA0 || n = 0x1680 ||
    (0x2000 ≤ n && n ≤ 0x200A) || n = 0x2028 || n = 0x2029 || n = 0x202F || n = 0x205F ||
    n = 0x3000

def trimStart (cs : List Char) : List Char := cs.dropWhile isBlank

def trimEnd (cs : List Char) : List Char := (cs.reverse.dropWhile isBlank).reverse

def trim (cs : List Char) : List Char := trimEnd (trimStart cs)

def allBlank (cs : List Char) : Bool := cs.all isBlank

def hasBlankEnd (cs : List Char) : Bool := cs.head?.any isBlank || cs.getLast?.any isBlank

theorem trimStart_eq_self {cs : List Char} (h : cs.head?.any isBlank = false) :
    trimStart cs = cs := by
  cases cs with
  | nil => rfl
  | cons c r => simp_all [trimStart]

theorem trimEnd_eq_self {cs : List Char} (h : cs.getLast?.any isBlank = false) :
    trimEnd cs = cs := by
  have h' : cs.reverse.head?.any isBlank = false := by simpa using h
  have := trimStart_eq_self h'
  simp only [trimStart] at this
  simp [trimEnd, this]

theorem trim_eq_self {cs : List Char} (h : hasBlankEnd cs = false) : trim cs = cs := by
  simp only [hasBlankEnd, Bool.or_eq_false_iff] at h
  rw [trim, trimStart_eq_self h.1, trimEnd_eq_self h.2]

theorem trimStart_of_allBlank {cs : List Char} (h : allBlank cs = true) : trimStart cs = [] := by
  induction cs with
  | nil => rfl
  | cons c r ih =>
    simp only [allBlank, List.all_cons, Bool.and_eq_true] at h
    simpa [trimStart, h.1] using ih h.2

theorem trim_of_allBlank {cs : List Char} (h : allBlank cs = true) : trim cs = [] := by
  simp [trim, trimStart_of_allBlank h, trimEnd]

/-! Blanks that are written around a text make no difference to what is left of it. -/

theorem trimStart_append_of_allBlank {ws : List Char} (h : allBlank ws = true) (cs : List Char) :
    trimStart (ws ++ cs) = trimStart cs :=
  List.dropWhile_append_of_pos (List.all_eq_true.mp h)

theorem trimEnd_append_of_allBlank {ws : List Char} (h : allBlank ws = true) (cs : List Char) :
    trimEnd (cs ++ ws) = trimEnd cs := by
  have mirrored : allBlank ws.reverse = true := by simpa [allBlank] using h
  rw [trimEnd, List.reverse_append]
  exact congrArg List.reverse (trimStart_append_of_allBlank mirrored cs.reverse)

theorem trimStart_append (cs ws : List Char) : trimStart (cs ++ ws) =
    if trimStart cs = [] then trimStart ws else trimStart cs ++ ws := by
  unfold trimStart
  rw [List.dropWhile_append]
  simp

theorem trim_append_of_allBlank {ws : List Char} (h : allBlank ws = true) (cs : List Char) :
    trim (cs ++ ws) = trim cs := by
  unfold trim
  rw [trimStart_append]
  split
  · next nothing => rw [nothing, trimStart_of_allBlank h]
  · exact trimEnd_append_of_allBlank h _

theorem exists_trimEnd_append (cs : List Char) :
    ∃ ws, allBlank ws = true ∧ cs = trimEnd cs ++ ws := by
  refine ⟨(cs.reverse.takeWhile isBlank).reverse, by simp [allBlank], ?_⟩
  rw [trimEnd, ← List.reverse_append, List.takeWhile_append_dropWhile, List.reverse_reverse]

theorem head?_trimStart (cs : List Char) : (trimStart cs).head?.any isBlank = false := by
  have first := List.head?_dropWhile_not isBlank cs
  unfold trimStart
  cases h : (cs.dropWhile isBlank).head? with
  | none => rfl
  | some c => simpa [h] using first

theorem trimStart_trim (cs : List Char) : trimStart (trim cs) = trim cs := by
  obtain ⟨ws, -, split⟩ := exists_trimEnd_append (trimStart cs)
  have first := head?_trimStart cs
  refine trimStart_eq_self ?_
  cases trimmed : trim cs with
  | nil => rfl
  | cons c r =>
    rw [split, show trimEnd (trimStart cs) = c :: r from trimmed] at first
    exact first

end DirectiveRunner.Text

namespace DirectiveRunner

def trimmed (s : String) : String := .ofList (Text.trim s.toList)

def isBlankText (s : String) : Bool := Text.allBlank s.toList

end DirectiveRunner
