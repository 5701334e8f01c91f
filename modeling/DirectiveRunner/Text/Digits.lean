/-!
# Numerals

Natural numbers written in a base, most significant digit first, and read back. The digits above
nine are the small letters from `a` on; reading takes capitals too. A digit is read back as what it
was written for (`digitValue?_digitChar`), and so is a numeral (`ofDigits?_digits`).
-/

namespace DirectiveRunner.Text

/-- The value of a digit: `0` to `9`, then letters from `a` on. -/
def digitValue? (c : Char) : Option Nat :=
  let n := c.toNat
  if 48 ≤ n && n ≤ 57 then some (n - 48)
  else if 97 ≤ n && n ≤ 122 then some (n - 87)
  else if 65 ≤ n && n ≤ 90 then some (n - 55)
  else none

/-- The numeral of `n` in a base from 2 to 16. -/
def digits (base n : Nat) : List Char := Nat.toDigits base n

def decimal (n : Nat) : List Char := digits 10 n

def isDigitOf (base : Nat) (c : Char) : Bool := (digitValue? c).any (· < base)

/-- The number a non-empty run of digits of the base stands for. -/
def ofDigits? (base : Nat) : List Char → Option Nat
  | [] => none
  | cs =>
    cs.foldl (fun acc c => do
      let n ← acc
      let d ← digitValue? c
      if d < base then some (n * base + d) else none) (some 0)

/-- A numeral with zeros in front up to a width. -/
def padded (width : Nat) (cs : List Char) : List Char :=
  List.replicate (width - cs.length) '0' ++ cs

theorem digitValue?_digitChar {d : Nat} (h : d < 16) : digitValue? (Nat.digitChar d) = some d := by
  have : ∀ d : Fin 16, digitValue? (Nat.digitChar d) = some d.val := by decide
  exact this ⟨d, h⟩

theorem isDigitOf_of_mem_digits {base n : Nat} (two : 2 ≤ base) (sixteen : base ≤ 16) {c : Char}
    (h : c ∈ digits base n) : isDigitOf base c = true := by
  have digit {d : Nat} (lt : d < base) : isDigitOf base (Nat.digitChar d) = true := by
    simp [isDigitOf, digitValue?_digitChar (by omega : d < 16), lt]
  induction n using Nat.strongRecOn with
  | ind n ih =>
    rcases Nat.lt_or_ge n base with small | large
    · rw [digits, Nat.toDigits_of_lt_base small, List.mem_singleton] at h
      exact h ▸ digit small
    · rw [digits, Nat.toDigits_of_base_le two large, List.mem_append, List.mem_singleton] at h
      rcases h with earlier | rfl
      · exact ih (n / base) (Nat.div_lt_self (by omega) two) earlier
      · exact digit (Nat.mod_lt n (by omega))

/-- A numeral is read back as the number it was written for. -/
theorem ofDigits?_digits {base : Nat} (two : 2 ≤ base) (sixteen : base ≤ 16) (n : Nat) :
    ofDigits? base (digits base n) = some n := by
  have digit {d : Nat} (lt : d < base) : digitValue? (Nat.digitChar d) = some d :=
    digitValue?_digitChar (by omega)
  have nonempty : digits base n ≠ [] := Nat.toDigits_ne_nil
  rw [ofDigits?.eq_2 base _ nonempty]
  induction n using Nat.strongRecOn with
  | ind n ih =>
    rcases Nat.lt_or_ge n base with small | large
    · simp [digits, Nat.toDigits_of_lt_base small, digit small, small]
    · have lt : n % base < base := Nat.mod_lt n (by omega)
      have earlier := ih (n / base) (Nat.div_lt_self (by omega) two) Nat.toDigits_ne_nil
      rw [digits, Nat.toDigits_of_base_le two large, List.foldl_append, ← digits, earlier]
      simp [digit lt, lt, Nat.div_add_mod']

/-- Zeros in front of a numeral do not change its number. -/
theorem ofDigits?_padded {base : Nat} (two : 2 ≤ base) (sixteen : base ≤ 16) (width n : Nat) :
    ofDigits? base (padded width (digits base n)) = some n := by
  have nonempty : digits base n ≠ [] := Nat.toDigits_ne_nil
  have number := ofDigits?_digits two sixteen n
  rw [ofDigits?.eq_2 base _ nonempty] at number
  rw [padded, ofDigits?.eq_2 base _ (by simp [nonempty]), List.foldl_append]
  generalize width - (digits base n).length = zeros
  induction zeros with
  | zero => exact number
  | succ zeros ih =>
    have zero : digitValue? '0' = some 0 := rfl
    simpa [List.replicate_succ, zero, show 0 < base by omega] using ih

/-- The digits are the ASCII digits and letters. -/
theorem toNat_of_isDigitOf {base : Nat} {c : Char} (h : isDigitOf base c = true) :
    (48 ≤ c.toNat ∧ c.toNat ≤ 57) ∨ (97 ≤ c.toNat ∧ c.toNat ≤ 122) ∨
      (65 ≤ c.toNat ∧ c.toNat ≤ 90) := by
  unfold isDigitOf digitValue? at h
  simp only [Bool.and_eq_true, decide_eq_true_eq] at h
  split at h
  · next digit => exact .inl digit
  split at h
  · next small => exact .inr (.inl small)
  split at h
  · next capital => exact .inr (.inr capital)
  · cases h

end DirectiveRunner.Text

namespace DirectiveRunner

def showNat (n : Nat) : String := .ofList (Text.decimal n)

def showInt (i : Int) : String :=
  if i < 0 then .ofList ('-' :: Text.decimal i.natAbs) else showNat i.natAbs

end DirectiveRunner
