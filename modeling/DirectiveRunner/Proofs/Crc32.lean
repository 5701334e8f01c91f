import DirectiveRunner.Checksum
import Mathlib.Algebra.Field.ZMod
import Mathlib.RingTheory.AdjoinRoot
/-!
# The checksum is the remainder of a polynomial

Bits are coefficients of polynomials over the field with two elements, and the CRC-32 of some bytes is
the complement of a remainder (`crc32`): the message is multiplied by `X ^ 32`, 32 ones are added to its
highest coefficients, and what is left of that modulo a generator of degree 32 is taken.

The register of the checksum stands for a polynomial of degree less than 32 (`ofRegister`). Moving it on
by a bit multiplies the polynomial by `X`, modulo the generator (`residue_shift`), and that is all the
argument there is: it is carried from a bit to a byte (`residue_feed`) and from a byte to all of them
(`residue_foldl_feed`).
-/

open Polynomial

namespace DirectiveRunner

namespace Crc32

/-! ## What a CRC-32 is -/

/-- A bit as a coefficient. -/
def ofBool (b : Bool) : ZMod 2 := if b then 1 else 0

/-- The polynomial with some coefficients, that of the highest power first. -/
noncomputable def ofBits : List Bool → (ZMod 2)[X]
  | [] => 0
  | b :: bs => monomial bs.length (ofBool b) + ofBits bs

/-- The bits of a number, the lowest first. -/
def bits {w : Nat} (x : BitVec w) : List Bool := List.ofFn fun i : Fin w => x[i]

/-- The generator of ISO 3309. -/
noncomputable def generator : (ZMod 2)[X] :=
  X ^ 32 + X ^ 26 + X ^ 23 + X ^ 22 + X ^ 16 + X ^ 12 + X ^ 11 + X ^ 10 + X ^ 8 + X ^ 7 + X ^ 5 +
    X ^ 4 + X ^ 2 + X + 1

/-- Bytes as a polynomial. The bits of each byte come in the order in which they are sent, the lowest
first. -/
noncomputable def message (bytes : List UInt8) : (ZMod 2)[X] :=
  ofBits (bytes.flatMap fun b => bits b.toBitVec)

/-- What is left of a message modulo the generator, if it is made longer by 32 zeros and its first 32
bits are inverted. -/
noncomputable def remainder (bytes : List UInt8) : (ZMod 2)[X] :=
  (X ^ (8 * bytes.length) * ofBits (.replicate 32 true) + X ^ 32 * message bytes) %ₘ generator

/-- The number whose bits are the coefficients of a polynomial, the lowest bit that of `X ^ 31`. -/
noncomputable def toRegister (p : (ZMod 2)[X]) : UInt32 :=
  .ofBitVec (.setWidth 32 (.ofBoolListLE (.ofFn fun i : Fin 32 => decide (p.coeff (31 - i) = 1))))

end Crc32

/-- The CRC-32 of some bytes: the remainder with all its bits inverted. -/
noncomputable def crc32 (bytes : List UInt8) : UInt32 :=
  ~~~ Crc32.toRegister (Crc32.remainder bytes)

namespace Crc32

/-! ## Bits as coefficients -/

theorem ofBool_xor (b c : Bool) : ofBool (b ^^ c) = ofBool b + ofBool c := by
  cases b <;> cases c <;> rfl

theorem ofBits_append (xs ys : List Bool) :
    ofBits (xs ++ ys) = X ^ ys.length * ofBits xs + ofBits ys := by
  induction xs with
  | nil => simp [ofBits]
  | cons b xs ih =>
    rw [List.cons_append, ofBits, ofBits, ih, List.length_append, mul_add, X_pow_mul_monomial,
      add_assoc]

theorem ofBits_replicate_false (n : Nat) : ofBits (.replicate n false) = 0 := by
  induction n with
  | zero => rfl
  | succ n ih => simp [List.replicate_succ, ofBits, ofBool, ih]

theorem ofBits_zipWith_xor {xs ys : List Bool} (same : xs.length = ys.length) :
    ofBits (List.zipWith Bool.xor xs ys) = ofBits xs + ofBits ys := by
  induction xs generalizing ys with
  | nil =>
    rw [List.length_eq_zero_iff.mp same.symm]
    simp [ofBits]
  | cons b xs ih =>
    obtain _ | ⟨c, ys⟩ := ys
    · cases same
    · have rest : xs.length = ys.length := Nat.succ.inj same
      rw [List.zipWith_cons_cons, ofBits, ofBits, ofBits, ih rest, List.length_zipWith, rest,
        Nat.min_self, ofBool_xor, map_add]
      exact add_add_add_comm ..

theorem degree_ofBits_lt (bs : List Bool) : (ofBits bs).degree < bs.length := by
  induction bs with
  | nil => simp [ofBits]
  | cons b bs ih =>
    have longer : (bs.length : WithBot Nat) < (b :: bs).length :=
      WithBot.coe_lt_coe.mpr (Nat.lt_succ_self _)
    apply (degree_add_le _ _).trans_lt
    exact max_lt ((degree_monomial_le _ _).trans_lt longer) (ih.trans longer)

theorem coeff_ofBits {bs : List Bool} {i : Nat} (h : i < bs.length) :
    (ofBits bs).coeff (bs.length - 1 - i) = ofBool bs[i] := by
  induction bs generalizing i with
  | nil => cases h
  | cons b bs ih =>
    rw [ofBits, coeff_add]
    cases i with
    | zero =>
      have high : (ofBits bs).coeff bs.length = 0 := coeff_eq_zero_of_degree_lt (degree_ofBits_lt bs)
      simp [high]
    | succ i =>
      have short : i < bs.length := Nat.succ_lt_succ_iff.mp h
      have lower : bs.length - 1 - i ≠ bs.length := by omega
      rw [List.length_cons, Nat.add_sub_cancel, Nat.sub_add_eq, Nat.sub_right_comm,
        coeff_monomial_of_ne _ lower, zero_add, ih short]
      rfl

/-! ## The bits of numbers -/

variable {w : Nat}

@[simp] theorem length_bits (x : BitVec w) : (bits x).length = w := List.length_ofFn

@[simp] theorem getElem_bits (x : BitVec w) {i : Nat} (inside : i < (bits x).length) :
    (bits x)[i] = x.getLsbD i := by
  have short : i < w := by simpa using inside
  simp [bits, short]

theorem setWidth_ofBoolListLE_bits (x : BitVec w) :
    (BitVec.ofBoolListLE (bits x)).setWidth w = x := by
  apply BitVec.eq_of_getElem_eq
  intro i inside
  have within : i < (bits x).length := by simpa using inside
  rw [BitVec.getElem_setWidth, BitVec.getLsbD_ofBoolListLE, List.getD_eq_getElem?_getD,
    List.getElem?_eq_getElem within, Option.getD_some, getElem_bits,
    BitVec.getLsbD_eq_getElem inside]

theorem ofBits_bits_xor (x y : BitVec w) :
    ofBits (bits (x ^^^ y)) = ofBits (bits x) + ofBits (bits y) := by
  rw [← ofBits_zipWith_xor (by simp)]
  congr 1
  apply List.ext_getElem
  · simp
  · simp

/-- A number is multiplied by `X` by moving its bits, but for its lowest one. -/
theorem X_mul_ofBits_bits (x : BitVec (w + 1)) :
    X * ofBits (bits x) = monomial (w + 1) (ofBool x[0]) + ofBits (bits (x >>> 1)) := by
  have first : bits x = x[0] :: (bits x).tail := by
    rw [bits, List.ofFn_succ]
    rfl
  have moved : bits (x >>> 1) = (bits x).tail ++ [false] := by
    apply List.ext_getElem
    · simp
    · intro i inside _
      rw [length_bits] at inside
      obtain lower | rfl := Nat.lt_succ_iff_lt_or_eq.mp inside
      · simp [lower, Nat.add_comm 1]
      · simp
  have length : (bits x).tail.length = w := by simp
  rw [moved, ofBits_append]
  nth_rewrite 1 [first]
  rw [ofBits, length, mul_add, ← pow_one X, X_pow_mul_monomial]
  simp [ofBits, ofBool]

theorem ofBits_bits_setWidth {v : Nat} (x : BitVec w) :
    ofBits (bits (x.setWidth (w + v))) = X ^ v * ofBits (bits x) := by
  have longer : bits (x.setWidth (w + v)) = bits x ++ .replicate v false := by
    apply List.ext_getElem
    · simp
    · intro i inside _
      rw [length_bits] at inside
      by_cases lower : i < w
      · simp [lower, inside]
      · simp [lower, List.getElem_append, BitVec.getLsbD_of_ge x i (Nat.not_lt.mp lower)]
  rw [longer, ofBits_append, ofBits_replicate_false, List.length_replicate, add_zero]

/-! ## The register as a polynomial -/

/-- The polynomial that a register stands for. -/
noncomputable def ofRegister (r : UInt32) : (ZMod 2)[X] := ofBits (bits r.toBitVec)

theorem ofRegister_xor (r r' : UInt32) : ofRegister (r ^^^ r') = ofRegister r + ofRegister r' :=
  ofBits_bits_xor _ _

theorem degree_ofRegister_lt (r : UInt32) : (ofRegister r).degree < 32 := by
  have short := degree_ofBits_lt (bits r.toBitVec)
  rwa [length_bits] at short

/-- The lowest bit of a register is the coefficient of the highest power. -/
theorem coeff_ofRegister (r : UInt32) {i : Nat} (h : i < 32) :
    (ofRegister r).coeff (31 - i) = ofBool r.toBitVec[i] := by
  have inside : i < (bits r.toBitVec).length := by simpa using h
  have coefficient := coeff_ofBits inside
  rwa [length_bits, getElem_bits, BitVec.getLsbD_eq_getElem h] at coefficient

/-- A register can be told from its polynomial. -/
theorem toRegister_ofRegister (r : UInt32) : toRegister (ofRegister r) = r := by
  have coefficients : (List.ofFn fun i : Fin 32 => decide ((ofRegister r).coeff (31 - i) = 1)) =
      bits r.toBitVec := by
    apply congrArg List.ofFn
    funext i
    rw [coeff_ofRegister r i.isLt]
    show decide (ofBool r.toBitVec[i] = 1) = r.toBitVec[i]
    cases r.toBitVec[i] <;> rfl
  rw [toRegister, coefficients, setWidth_ofBoolListLE_bits]

/-- The polynomial that is written down as a register is the generator without its highest power. -/
theorem generator_eq : generator = X ^ 32 + ofRegister polynomial := by
  have coefficients : bits polynomial.toBitVec =
      [true, true, true, false, true, true, false, true, true, false, true, true, true, false,
        false, false, true, false, false, false, false, false, true, true, false, false, true,
        false, false, false, false, false].reverse := by
    decide +kernel
  rw [ofRegister, coefficients, generator]
  simp [ofBits, ofBool, monomial_one_right_eq_X_pow]
  ring

theorem generator_monic : generator.Monic := by
  rw [generator_eq]
  exact monic_X_pow_add (degree_ofRegister_lt _)

theorem degree_generator : generator.degree = 32 := by
  have low : (ofRegister polynomial).degree < (X ^ 32 : (ZMod 2)[X]).degree := by
    rw [degree_X_pow]
    exact degree_ofRegister_lt _
  rw [generator_eq, degree_add_eq_left_of_degree_lt low, degree_X_pow]
  rfl

/-! ## Moving the register on -/

/-- What a polynomial is modulo the generator. -/
noncomputable abbrev residue : (ZMod 2)[X] →+* AdjoinRoot generator := AdjoinRoot.mk generator

theorem residue_polynomial : residue (ofRegister polynomial) = residue (X ^ 32) := by
  apply AdjoinRoot.mk_eq_mk.mpr
  rw [CharTwo.sub_eq_add, add_comm, ← generator_eq]

theorem and_one_iff (r : UInt32) : r &&& 1 = 1 ↔ r.toBitVec[0] = true := by
  rw [← UInt32.toBitVec_inj, UInt32.toBitVec_and]
  show r.toBitVec &&& 1#32 = 1#32 ↔ _
  rw [BitVec.and_one_eq_setWidth_ofBool_getLsbD, BitVec.getLsbD_eq_getElem (by decide)]
  cases r.toBitVec[0] <;> decide

/-- Moving the register on by a bit multiplies its polynomial by `X`. -/
theorem residue_shift (r : UInt32) : residue (ofRegister (shift r)) = residue (X * ofRegister r) := by
  have moved : X * ofRegister r = monomial 32 (ofBool r.toBitVec[0]) + ofRegister (r >>> 1) :=
    X_mul_ofBits_bits r.toBitVec
  rw [shift, moved]
  split
  · next one =>
    -- the bit that leaves the register is the coefficient of `X ^ 32`
    have leaves : monomial 32 (ofBool r.toBitVec[0]) = (X ^ 32 : (ZMod 2)[X]) := by
      rw [(and_one_iff r).mp one]
      exact monomial_one_right_eq_X_pow 32
    rw [leaves, ofRegister_xor, map_add, map_add, residue_polynomial, add_comm]
  · next zero =>
    have leaves : monomial 32 (ofBool r.toBitVec[0]) = (0 : (ZMod 2)[X]) := by
      rw [Bool.not_eq_true _ |>.mp (mt (and_one_iff r).mpr zero)]
      exact map_zero _
    rw [leaves, zero_add]

theorem residue_repeat_shift (n : Nat) (r : UInt32) :
    residue (ofRegister (Nat.repeat shift n r)) = residue (X ^ n * ofRegister r) := by
  induction n with
  | zero => simp [Nat.repeat]
  | succ n ih =>
    rw [Nat.repeat, residue_shift, map_mul, ih, ← map_mul, ← mul_assoc, ← pow_succ']

/-- Taking up a byte adds its bits behind those of the register. -/
theorem residue_feed (r : UInt32) (b : UInt8) :
    residue (ofRegister (feed r b)) =
      residue (X ^ 8 * ofRegister r + X ^ 32 * ofBits (bits b.toBitVec)) := by
  have byte : ofRegister b.toUInt32 = X ^ 24 * ofBits (bits b.toBitVec) :=
    ofBits_bits_setWidth (v := 24) b.toBitVec
  rw [feed, residue_repeat_shift, ofRegister_xor, byte, mul_add, ← mul_assoc, ← pow_add]

theorem residue_foldl_feed (bytes : List UInt8) (r : UInt32) :
    residue (ofRegister (bytes.foldl feed r)) =
      residue (X ^ (8 * bytes.length) * ofRegister r + X ^ 32 * message bytes) := by
  induction bytes generalizing r with
  | nil => simp [message, ofBits]
  | cons b bytes ih =>
    have first : message (b :: bytes) =
        X ^ (8 * bytes.length) * ofBits (bits b.toBitVec) + message bytes := by
      have length : (bytes.flatMap fun b => bits b.toBitVec).length = 8 * bytes.length := by
        simp [List.length_flatMap, Nat.mul_comm]
      rw [message, List.flatMap_cons, ofBits_append, length, message]
    rw [List.foldl_cons, ih, first, map_add, map_mul, residue_feed, ← map_mul, ← map_add,
      List.length_cons]
    exact congrArg residue (by ring)

/-- The register after the bytes is the remainder. -/
theorem ofRegister_register (bytes : List UInt8) : ofRegister (register bytes) = remainder bytes := by
  have ones : ofRegister 0xFFFFFFFF = ofBits (.replicate 32 true) :=
    congrArg ofBits (by decide +kernel)
  have reduced : ofRegister (register bytes) %ₘ generator = ofRegister (register bytes) := by
    rw [modByMonic_eq_self_iff generator_monic, degree_generator]
    exact degree_ofRegister_lt _
  rw [← reduced, remainder, ← ones]
  apply modByMonic_eq_of_dvd_sub generator_monic
  apply AdjoinRoot.mk_eq_mk.mp
  exact residue_foldl_feed bytes _

end Crc32

/-- **The checksum of some bytes is their CRC-32.** -/
theorem checksum_eq_crc32 (bytes : ByteArray) : checksum bytes = crc32 bytes.data.toList := by
  rw [crc32, ← Crc32.ofRegister_register, Crc32.toRegister_ofRegister, checksum]

/-- The check value of a pangram. -/
example : checksum "The quick brown fox jumps over the lazy dog".toUTF8 = 0x414fa339 := by
  decide +kernel

end DirectiveRunner
