import DirectiveRunner.Proofs.Rounding
import DirectiveRunner.Run.Report
import DirectiveRunner.Text.Pieces
/-!
# File sizes

The unit of a file size is looked for by dividing a floating point number again and again, and its
number is rounded to one decimal afterwards. Neither step loses anything that would show: below
`10 ^ 15` bytes the unit is the largest that the size reaches, and no other number with one
decimal is nearer to the exact quotient. The induction is on the divisions that are done
(`Divided`): all of them together are off by less than a byte, and none falls below a thousand
that the exact quotient reaches.

What does show is that the unit is chosen before the number is rounded. A size that is nearly a
thousand of its unit becomes a thousand of it, and the unit is not chosen again (`RoundsUp`).
-/

namespace DirectiveRunner.FileSize

open Text (pieces ofDigits?)

variable {bytes k : Nat} {unit : String}

/-! ## Sizes that are written and read -/

def tenthsText (t : Nat) : String := showNat (t / 10) ++ "." ++ showNat (t % 10)

/-- The number that a numeral with or without decimals stands for. -/
def numberOf? (numeral : List Char) : Option ℚ :=
  match pieces '.' numeral with
  | [whole] => (ofDigits? 10 whole).map fun n => (n : ℚ)
  | [whole, decimals] => do
    let n ← ofDigits? 10 whole
    let p ← ofDigits? 10 decimals
    return n + p / 10 ^ decimals.length
  | _ => none

/-- The number and the unit of a size as it is written. -/
def readSize? (text : String) : Option (ℚ × String) :=
  match pieces ' ' text.toList with
  | [numeral, unit] => (numberOf? numeral).map fun q => (q, .ofList unit)
  | _ => none

/-- A character that is no digit is not in a numeral. -/
theorem not_mem_decimal {c : Char} (other : Text.isDigitOf 10 c = false) (n : Nat) :
    c ∉ Text.decimal n := by
  intro mem
  rw [Text.isDigitOf_of_mem_digits (by decide) (by decide) mem] at other
  cases other

theorem readSize?_append {numeral unit : String} {q : ℚ}
    (number : numberOf? numeral.toList = some q) (inNumeral : ' ' ∉ numeral.toList)
    (inUnit : ' ' ∉ unit.toList) :
    readSize? (numeral ++ " " ++ unit) = some (q, unit) := by
  have cut : pieces ' ' (numeral ++ " " ++ unit).toList = [numeral.toList, unit.toList] := by
    rw [String.toList_append, String.toList_append, List.append_assoc]
    show pieces ' ' (numeral.toList ++ ' ' :: unit.toList) = _
    rw [Text.pieces_append inNumeral, Text.pieces_of_not_mem inUnit]
  unfold readSize?
  rw [cut]
  simp [number]

theorem numberOf?_showNat (n : Nat) : numberOf? (showNat n).toList = some (n : ℚ) := by
  unfold numberOf? showNat
  rw [String.toList_ofList, Text.pieces_of_not_mem (not_mem_decimal (by decide) n)]
  simp [Text.decimal, Text.ofDigits?_digits]

theorem readSize?_bytes (n : Nat) : readSize? (showNat n ++ " B") = some ((n : ℚ), "B") := by
  have apart : showNat n ++ " B" = showNat n ++ " " ++ "B" := by
    rw [String.append_assoc]
    rfl
  rw [apart]
  apply readSize?_append (numberOf?_showNat n)
  · rw [showNat, String.toList_ofList]
    exact not_mem_decimal (by decide) n
  · decide

theorem toList_tenthsText (t : Nat) :
    (tenthsText t).toList = Text.decimal (t / 10) ++ '.' :: Text.decimal (t % 10) := by
  simp [tenthsText, showNat]

theorem numberOf?_tenthsText (t : Nat) : numberOf? (tenthsText t).toList = some (t / 10 : ℚ) := by
  have single : (Text.decimal (t % 10)).length = 1 := by
    rw [Text.decimal, Text.digits, Nat.toDigits_of_lt_base (Nat.mod_lt t (by decide))]
    rfl
  have parts : (t : ℚ) = ((t / 10 : Nat) : ℚ) * 10 + ((t % 10 : Nat) : ℚ) := by
    exact_mod_cast (Nat.div_add_mod' t 10).symm
  unfold numberOf?
  rw [toList_tenthsText, Text.pieces_append (not_mem_decimal (by decide) _),
    Text.pieces_of_not_mem (not_mem_decimal (by decide) _)]
  simp only [single]
  simp [Text.decimal, Text.ofDigits?_digits, parts]
  ring

theorem readSize?_tenths (t : Nat) (isUnit : unit ∈ sizeUnits) :
    readSize? (tenthsText t ++ " " ++ unit) = some ((t / 10 : ℚ), unit) := by
  have plain : ∀ unit ∈ sizeUnits, ' ' ∉ unit.toList := by decide
  apply readSize?_append (numberOf?_tenthsText t)
  · have digits : ∀ n, ' ' ∉ Text.decimal n := not_mem_decimal (by decide)
    simp [toList_tenthsText, digits]
  · exact plain unit isUnit

/-! ## Sizes that are divided -/

/-- A size, divided `k` times by a thousand. -/
def dividedSize (bytes : Nat) : Nat → Binary64
  | 0 => (Binary64.nearest? bytes 1).getD ⟨0, 0⟩
  | k + 1 => (dividedSize bytes k).dividedBy 1000

/-- What `k` divisions by a thousand make of a size, with the error told in bytes. -/
structure Divided (bytes k : Nat) (x : Binary64) : Prop where
  /-- The start and each division add at most an eighth of a byte. -/
  near : |x.value * 1000 ^ k - bytes| ≤ (k + 1) / 8
  /-- It reaches the integers that the exact quotient reaches. -/
  reaches : ∀ m : Nat, m * 1000 ^ k ≤ bytes → (m : ℚ) ≤ x.value

theorem divided_zero (pos : 0 < bytes) (small : bytes < 10 ^ 15) :
    Binary64.nearest? bytes 1 = some (dividedSize bytes 0) ∧
      Divided bytes 0 (dividedSize bytes 0) := by
  obtain ⟨x, nearest, rounds⟩ := Binary64.nearest?_rounds Nat.one_pos pos (by omega)
  have same : dividedSize bytes 0 = x := by simp [dividedSize, nearest]
  rw [Nat.cast_one, div_one] at rounds
  rw [same]
  refine ⟨nearest, ?_, fun m reached => ?_⟩
  · have less : (bytes : ℚ) ≤ 10 ^ 15 := by exact_mod_cast small.le
    rw [pow_zero, mul_one, Nat.cast_zero]
    linarith [rounds.near]
  · rw [pow_zero, Nat.mul_one] at reached
    exact rounds.reaches m (by exact_mod_cast reached)

theorem Divided.abs_sub_lt {x : Binary64} (h : Divided bytes k x) (few : k < 5) :
    |x.value * 1000 ^ k - bytes| < 1 := by
  have few' : (k : ℚ) ≤ 4 := by exact_mod_cast Nat.le_of_lt_succ few
  linarith [h.near]

/-- One more division, rounded, is off by at most an eighth of a byte. -/
theorem Divided.abs_sub_le_of_rounds {x y : Binary64} (h : Divided bytes k x)
    (small : bytes < 10 ^ 15) (few : k < 5) (rounds : y.Rounds (x.value / 1000)) :
    |y.value * 1000 ^ (k + 1) - x.value * 1000 ^ k| ≤ 1 / 8 := by
  have less : (bytes : ℚ) ≤ 10 ^ 15 := by exact_mod_cast small.le
  have whole : x.value * 1000 ^ k ≤ 10 ^ 15 + 1 := by linarith [abs_lt.mp (h.abs_sub_lt few)]
  have scaled : y.value * 1000 ^ (k + 1) - x.value * 1000 ^ k =
      (y.value - x.value / 1000) * 1000 ^ (k + 1) := by
    ring
  rw [scaled, abs_mul, abs_of_pos (show (0 : ℚ) < 1000 ^ (k + 1) by positivity)]
  calc |y.value - x.value / 1000| * 1000 ^ (k + 1)
      ≤ x.value / 1000 / 2 ^ 53 * 1000 ^ (k + 1) :=
        mul_le_mul_of_nonneg_right rounds.near (by positivity)
    _ = x.value * 1000 ^ k / 2 ^ 53 := by ring
    _ ≤ 1 / 8 := by linarith

theorem Divided.step {x : Binary64} (h : Divided bytes k x) (small : bytes < 10 ^ 15) (few : k < 4)
    (reached : 1000 ^ (k + 1) ≤ bytes) : Divided bytes (k + 1) (x.dividedBy 1000) := by
  have one : ((1000 : Nat) : ℚ) ≤ x.value := h.reaches 1000 (by rwa [← Nat.pow_succ'])
  have rounds : (x.dividedBy 1000).Rounds (x.value / 1000) := by
    apply Binary64.dividedBy_rounds (by decide) one
    have unit : (1 : ℚ) ≤ 1000 ^ k := one_le_pow₀ (by norm_num)
    have shrunk : x.value ≤ x.value * 1000 ^ k := by
      apply le_mul_of_one_le_right _ unit
      exact le_trans (Nat.cast_nonneg 1000) one
    have less : (bytes : ℚ) ≤ 10 ^ 15 := by exact_mod_cast small.le
    push_cast
    linarith [abs_lt.mp (h.abs_sub_lt (by omega))]
  constructor
  · -- the error so far and the one of this division add up
    have error := h.abs_sub_le_of_rounds small (by omega) rounds
    rw [Nat.cast_add, Nat.cast_one]
    linarith [abs_sub_le ((x.dividedBy 1000).value * 1000 ^ (k + 1)) (x.value * 1000 ^ k) bytes,
      h.near]
  · -- an integer that the quotient reaches is not lost by rounding
    intro m reaches
    apply rounds.reaches m
    rw [le_div_iff₀ (by norm_num)]
    exact_mod_cast h.reaches (m * 1000) (by rwa [Nat.mul_assoc, ← Nat.pow_succ'])

theorem Divided.atLeast_iff {x : Binary64} (h : Divided bytes k x) (few : k < 5) :
    x.atLeast 1000 = true ↔ 1000 ^ (k + 1) ≤ bytes := by
  rw [Binary64.atLeast_iff]
  constructor
  · intro reaches
    by_contra less
    -- the size is at least a byte short, and the error is less than that
    have short : (bytes : ℚ) + 1 ≤ 1000 * 1000 ^ k := by
      rw [← pow_succ']
      exact_mod_cast Nat.lt_of_not_le less
    have grown : (1000 : ℚ) * 1000 ^ k ≤ x.value * 1000 ^ k :=
      mul_le_mul_of_nonneg_right (by exact_mod_cast reaches) (by positivity)
    linarith [abs_lt.mp (h.abs_sub_lt few)]
  · intro reached
    exact h.reaches 1000 (by rwa [← Nat.pow_succ'])

/-- The tenths of a quotient are as near to the exact one as they can be. -/
theorem Divided.tenths_near {x : Binary64} (h : Divided bytes (k + 1) x) (few : k < 4) :
    x.tenths * (100 * 1000 ^ k) ≤ bytes + 50 * 1000 ^ k ∧
      bytes ≤ x.tenths * (100 * 1000 ^ k) + 50 * 1000 ^ k := by
  have near := h.abs_sub_lt (Nat.succ_lt_succ few)
  have decimal : |(x.tenths - 10 * x.value) * (100 * 1000 ^ k)| ≤ 1 / 2 * (100 * 1000 ^ k) := by
    rw [abs_mul, abs_of_pos (show (0 : ℚ) < 100 * 1000 ^ k by positivity)]
    exact mul_le_mul_of_nonneg_right x.abs_tenths_sub_le (by positivity)
  have error : |(x.tenths * (100 * 1000 ^ k) - bytes : ℚ)| < 50 * 1000 ^ k + 1 := by
    have split : (x.tenths * (100 * 1000 ^ k) - bytes : ℚ) =
        (x.tenths - 10 * x.value) * (100 * 1000 ^ k) + (x.value * 1000 ^ (k + 1) - bytes) := by
      ring
    rw [split]
    linarith [abs_add_le ((x.tenths - 10 * x.value) * (100 * 1000 ^ k))
      (x.value * 1000 ^ (k + 1) - bytes)]
  -- these are numbers of bytes, so what is less than one more is no more
  obtain ⟨above, below⟩ := abs_lt.mp error
  constructor
  · apply Nat.le_of_lt_succ
    have : (x.tenths * (100 * 1000 ^ k) : ℚ) < bytes + 50 * 1000 ^ k + 1 := by linarith
    exact_mod_cast this
  · apply Nat.le_of_lt_succ
    have : (bytes : ℚ) < x.tenths * (100 * 1000 ^ k) + 50 * 1000 ^ k + 1 := by linarith
    exact_mod_cast this

theorem Divided.abs_tenths_sub_le {x : Binary64} (h : Divided bytes (k + 1) x) (few : k < 4) :
    |(x.tenths : ℚ) / 10 - bytes / 1000 ^ (k + 1)| ≤ 1 / 20 := by
  obtain ⟨above, below⟩ := h.tenths_near few
  have above : (x.tenths * (100 * 1000 ^ k) : ℚ) ≤ bytes + 50 * 1000 ^ k := by exact_mod_cast above
  have below : (bytes : ℚ) ≤ x.tenths * (100 * 1000 ^ k) + 50 * 1000 ^ k := by exact_mod_cast below
  have quotient : (x.tenths : ℚ) / 10 - bytes / 1000 ^ (k + 1) =
      (x.tenths * (100 * 1000 ^ k) - bytes) / 1000 ^ (k + 1) := by
    field_simp
    ring
  rw [quotient, abs_le, le_div_iff₀ (by positivity), div_le_iff₀ (by positivity), pow_succ]
  constructor <;> linarith

/-! ## The unit that is chosen -/

/-- `unit` is the largest unit that a size reaches, the one after `k` others. -/
structure Largest (bytes k : Nat) (unit : String) : Prop where
  isUnit : sizeUnits[k]? = some unit
  reached : 1000 ^ (k + 1) ≤ bytes
  /-- The next one is not, whether there is one or not. -/
  below : bytes < 1000 ^ (k + 2)

/-- Among the units that are left the largest is chosen. -/
theorem inUnits_eq {units : List String} (small : bytes < 10 ^ 15)
    (left : sizeUnits.drop k = units) (nonempty : units ≠ []) (reached : 1000 ^ (k + 1) ≤ bytes)
    (divided : Divided bytes (k + 1) (dividedSize bytes (k + 1))) :
    ∃ j unit, Largest bytes j unit ∧ Divided bytes (j + 1) (dividedSize bytes (j + 1)) ∧
      inUnits (dividedSize bytes (k + 1)) units =
        tenthsText (dividedSize bytes (j + 1)).tenths ++ " " ++ unit := by
  -- by induction on the units that are left, where `k` of them are passed
  induction units generalizing k with
  | nil => exact absurd rfl nonempty
  | cons unit units ih =>
    have length : 4 - k = units.length + 1 := by
      rw [← List.length_cons, ← left, List.length_drop]
      rfl
    have isUnit : sizeUnits[k]? = some unit := by
      rw [← List.head?_drop, left, List.head?_cons]
    cases units with
    -- no unit comes after the last one, and `small` says that none is needed
    | nil =>
      obtain rfl : k = 3 := by simp only [List.length_nil] at length; omega
      exact ⟨3, unit, ⟨isUnit, reached, small⟩, divided, rfl⟩
    | cons next units =>
      have few : k + 1 < 4 := by simp only [List.length_cons] at length; omega
      rw [inUnits.eq_3 _ unit (next :: units) nofun]
      split
      · next more =>
        have reached := (divided.atLeast_iff (by omega)).mp more
        apply ih _ nofun reached (divided.step small few reached)
        rw [← List.drop_drop, left]
        rfl
      · next less =>
        rw [divided.atLeast_iff (by omega), Nat.not_le] at less
        exact ⟨k, unit, ⟨isUnit, reached, less⟩, divided, rfl⟩

theorem humanSize_eq (small : bytes < 10 ^ 15) (kilo : 1000 ≤ bytes) :
    ∃ k unit, Largest bytes k unit ∧ Divided bytes (k + 1) (dividedSize bytes (k + 1)) ∧
      humanSize bytes = tenthsText (dividedSize bytes (k + 1)).tenths ++ " " ++ unit := by
  obtain ⟨nearest, divided⟩ := divided_zero (by omega) small
  unfold humanSize
  rw [if_neg (by omega), nearest]
  exact inUnits_eq small rfl nofun kilo (divided.step small (by decide) kilo)

/-! ## Sizes that are rounded up -/

/-- A size is below the next unit, but by no more than half a tenth of its own, so the number is
rounded up to a thousand. -/
def RoundsUp (bytes : Nat) : Prop := ∃ k < 4, 999950 * 1000 ^ k ≤ bytes ∧ bytes < 1000 ^ (k + 2)

theorem not_roundsUp_of_lt (few : bytes < 1000) : ¬RoundsUp bytes := by
  rintro ⟨k, -, nearly, -⟩
  have := Nat.one_le_pow k 1000 (by decide)
  omega

theorem Largest.lt (h : Largest bytes k unit) : k < 4 := (List.getElem?_eq_some_iff.mp h.isUnit).1

theorem Largest.roundsUp_iff (h : Largest bytes k unit) :
    RoundsUp bytes ↔ 999950 * 1000 ^ k ≤ bytes := by
  constructor
  · rintro ⟨j, -, nearly, below⟩
    have reached : 1000 ^ (j + 1) ≤ bytes := by
      rw [Nat.pow_succ']
      omega
    have up := (Nat.pow_lt_pow_iff_right (by decide)).mp (h.reached.trans_lt below)
    have down := (Nat.pow_lt_pow_iff_right (by decide)).mp (reached.trans_lt h.below)
    obtain rfl : j = k := by omega
    exact nearly
  · intro nearly
    exact ⟨k, h.lt, nearly, h.below⟩

/-- Exactly half a tenth below the next unit, the number is rounded up in every unit. -/
theorem tenths_boundary : ∀ k < 4, (dividedSize (999950 * 1000 ^ k) (k + 1)).tenths = 10000 := by
  decide +kernel

/-- No number above a thousand is shown, and a thousand only if the size is rounded up. -/
theorem Largest.tenths_lt_iff (h : Largest bytes k unit)
    (divided : Divided bytes (k + 1) (dividedSize bytes (k + 1))) :
    (dividedSize bytes (k + 1)).tenths ≤ 10000 ∧
      ((dividedSize bytes (k + 1)).tenths < 10000 ↔ bytes < 999950 * 1000 ^ k) := by
  obtain ⟨above, below⟩ := divided.tenths_near h.lt
  have last : bytes < 1000 ^ k * 1000 * 1000 := h.below
  -- the error leaves open on which side the boundary falls, so it is computed for each unit
  have tie : bytes = 999950 * 1000 ^ k → (dividedSize bytes (k + 1)).tenths = 10000 := by
    rintro rfl
    exact tenths_boundary k h.lt
  generalize (dividedSize bytes (k + 1)).tenths = t at above below tie
  have atLeast {m : Nat} (le : m ≤ t) := Nat.mul_le_mul_right (100 * 1000 ^ k) le
  have atMost {m : Nat} (le : t ≤ m) := Nat.mul_le_mul_right (100 * 1000 ^ k) le
  refine ⟨?_, fun less => ?_, fun less => ?_⟩
  · by_contra more
    have := atLeast (Nat.lt_of_not_le more)
    omega
  · have := atMost (Nat.le_of_lt_succ less)
    omega
  · by_contra more
    have := atLeast (Nat.le_of_not_lt more)
    omega

/-- **File sizes.** Below a thousand bytes a size is shown exactly. From there on, below `10 ^ 15`,
it is shown in the largest unit that it reaches, with one decimal, and the number is off by at
most half a tenth. The number that is read off the text is never above a thousand, and it is
below a thousand exactly if the size is not rounded up to one. -/
theorem humanSize_below_iff (small : bytes < 10 ^ 15) :
    (bytes < 1000 → humanSize bytes = showNat bytes ++ " B") ∧
      (1000 ≤ bytes → ∃ k unit t, Largest bytes k unit ∧
        humanSize bytes = tenthsText t ++ " " ++ unit ∧
        |(t : ℚ) / 10 - bytes / 1000 ^ (k + 1)| ≤ 1 / 20) ∧
      ∃ q unit, readSize? (humanSize bytes) = some (q, unit) ∧ q ≤ 1000 ∧
        (q < 1000 ↔ ¬RoundsUp bytes) := by
  rcases Nat.lt_or_ge bytes 1000 with few | kilo
  · have text : humanSize bytes = showNat bytes ++ " B" := if_pos few
    refine ⟨fun _ => text, fun kilo => absurd few (Nat.not_lt.mpr kilo), bytes, "B", ?_, ?_, ?_⟩
    · rw [text, readSize?_bytes]
    · exact_mod_cast few.le
    · exact iff_of_true (by exact_mod_cast few) (not_roundsUp_of_lt few)
  · obtain ⟨k, unit, largest, divided, text⟩ := humanSize_eq small kilo
    obtain ⟨most, less_iff⟩ := largest.tenths_lt_iff divided
    have near := divided.abs_tenths_sub_le largest.lt
    generalize (dividedSize bytes (k + 1)).tenths = t at text most less_iff near
    refine ⟨fun few => absurd few (Nat.not_lt.mpr kilo),
      fun _ => ⟨k, unit, t, largest, text, near⟩, t / 10, unit, ?_, ?_, ?_⟩
    · rw [text, readSize?_tenths t (List.mem_of_getElem? largest.isUnit)]
    · rw [div_le_iff₀ (by norm_num)]
      exact_mod_cast most
    · rw [largest.roundsUp_iff, Nat.not_le, ← less_iff, div_lt_iff₀ (by norm_num)]
      norm_num

/-- The largest size that is shown as less than a thousand megabytes. -/
theorem humanSize_below_iff_megabytes :
    999949999 < 10 ^ 15 ∧ humanSize 999949999 = "999.9 MB" ∧ ¬RoundsUp 999949999 ∧
      ∃ q unit, readSize? (humanSize 999949999) = some (q, unit) ∧ q < 1000 := by
  have small : 999949999 < 10 ^ 15 := by decide
  have stays : ¬RoundsUp 999949999 := by
    unfold RoundsUp
    decide
  obtain ⟨-, -, q, unit, read, -, below⟩ := humanSize_below_iff small
  exact ⟨small, by decide +kernel, stays, q, unit, read, below.mpr stays⟩

/-- A size just below a megabyte is shown as a thousand kilobytes. -/
theorem humanSize_thousandKilobytes :
    999999 < 10 ^ 15 ∧ humanSize 999999 = "1000.0 kB" ∧
      ¬∃ q unit, readSize? (humanSize 999999) = some (q, unit) ∧ q < 1000 := by
  have text : humanSize 999999 = "1000.0 kB" := by decide +kernel
  have read : readSize? "1000.0 kB" = some (1000, "kB") := by decide +kernel
  refine ⟨by decide, text, ?_⟩
  rintro ⟨q, unit, found, below⟩
  rw [text, read, Option.some.injEq, Prod.mk.injEq] at found
  rw [← found.1] at below
  exact lt_irrefl _ below

end DirectiveRunner.FileSize
