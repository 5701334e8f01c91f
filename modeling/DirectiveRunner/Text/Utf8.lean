/-!
# Bytes and characters

Texts are stored as bytes in UTF-8. Strict reading (`decode?`) refuses bytes that are no UTF-8;
forgiving reading (`decodeLossy`) writes the replacement character for each longest run of bytes
that starts a character and cannot be finished, and for each byte that starts none. Both read
through `chunks`, which cuts the bytes into characters and bad runs. The bytes of a text are read as
that text (`decode?_encode`).
-/

namespace DirectiveRunner.Text.Utf8

/-- What the byte at the start of a character asks for: how many bytes follow, the bits it gives,
and the least and greatest value of the byte right after it. -/
structure Lead where
  tail : Nat
  bits : Nat
  low : Nat := 0x80
  high : Nat := 0xBF
deriving DecidableEq, Repr

/-- Reads a byte as the start of a character. -/
def lead? (b : Nat) : Option Lead :=
  if b ≤ 0x7F then some { tail := 0, bits := b }
  else if b < 0xC2 then none
  else if b ≤ 0xDF then some { tail := 1, bits := b - 0xC0 }
  else if b = 0xE0 then some { tail := 2, bits := 0, low := 0xA0 }
  else if b = 0xED then some { tail := 2, bits := 0xD, high := 0x9F }
  else if b ≤ 0xEF then some { tail := 2, bits := b - 0xE0 }
  else if b = 0xF0 then some { tail := 3, bits := 0, low := 0x90 }
  else if b ≤ 0xF3 then some { tail := 3, bits := b - 0xF0 }
  else if b = 0xF4 then some { tail := 3, bits := 4, high := 0x8F }
  else none

/-- A character of which some bytes have been read. -/
structure Begun where
  /-- How many bytes are still to come, less one. -/
  missing : Nat
  /-- The bits read so far. -/
  bits : Nat
  low : Nat
  high : Nat
deriving DecidableEq, Repr

/-- Reads a byte where a character starts: a whole character or bad byte, or the start of one. -/
def start (b : UInt8) : Option Char ⊕ Begun :=
  match lead? b.toNat with
  | none => .inl none
  | some { tail := 0, bits, .. } => .inl (some (Char.ofNat bits))
  | some { tail := n + 1, bits, low, high } => .inr ⟨n, bits, low, high⟩

/-- The characters of a run of bytes in order, with `none` for each bad run; `pending` is the
character that is being read. -/
def chunksFrom (pending : Option Begun) : List UInt8 → List (Option Char)
  | [] => if pending.isSome then [none] else []
  | b :: bs =>
    match pending with
    | none =>
      match start b with
      | .inl c => c :: chunksFrom none bs
      | .inr p => chunksFrom (some p) bs
    | some p =>
      if p.low ≤ b.toNat ∧ b.toNat ≤ p.high then
        let bits := p.bits * 64 + (b.toNat - 0x80)
        match p.missing with
        | 0 => some (Char.ofNat bits) :: chunksFrom none bs
        | n + 1 => chunksFrom (some ⟨n, bits, 0x80, 0xBF⟩) bs
      else
        none :: match start b with
          | .inl c => c :: chunksFrom none bs
          | .inr p => chunksFrom (some p) bs

/-- The characters of a run of bytes in order, with `none` for each bad run. -/
def chunks (bs : List UInt8) : List (Option Char) := chunksFrom none bs

/-- The text of the bytes, if they are UTF-8. -/
def decode? (bytes : ByteArray) : Option String :=
  ((chunks bytes.data.toList).mapM id).map .ofList

/-- The text of the bytes, with U+FFFD for each bad run. -/
def decodeLossy (bytes : ByteArray) : String :=
  .ofList ((chunks bytes.data.toList).map fun c => c.getD '\uFFFD')

def encode (s : String) : ByteArray := s.toUTF8

/-! ## Reading what was written -/

theorem lead?_one {v : Nat} (most : v < 128) : lead? v = some { tail := 0, bits := v } := by
  have within : v ≤ 0x7F := by omega
  simp [lead?, within]

theorem lead?_two {v : Nat} (least : 2 ≤ v) (most : v < 32) :
    lead? (v + 192) = some { tail := 1, bits := v } := by
  have table : ∀ v : Fin 32, 2 ≤ v.val → lead? (v + 192) = some { tail := 1, bits := v } := by decide
  exact table ⟨v, most⟩ least

theorem lead?_three {v : Nat} (most : v < 16) :
    lead? (v + 224) = some ⟨2, v, if v = 0 then 0xA0 else 0x80, if v = 0xD then 0x9F else 0xBF⟩ := by
  have table : ∀ v : Fin 16, lead? (v + 224) =
      some ⟨2, v, if v.val = 0 then 0xA0 else 0x80, if v.val = 0xD then 0x9F else 0xBF⟩ := by decide
  exact table ⟨v, most⟩

theorem lead?_four {v : Nat} (most : v < 5) :
    lead? (v + 240) = some ⟨3, v, if v = 0 then 0x90 else 0x80, if v = 4 then 0x8F else 0xBF⟩ := by
  have table : ∀ v : Fin 5, lead? (v + 240) =
      some ⟨3, v, if v.val = 0 then 0x90 else 0x80, if v.val = 4 then 0x8F else 0xBF⟩ := by decide
  exact table ⟨v, most⟩

section Chunks

variable {b : UInt8} {v n bits low high : Nat} {bs : List UInt8}

theorem chunksFrom_one (byte : b.toNat = v) (lead : lead? v = some ⟨0, bits, low, high⟩) :
    chunksFrom none (b :: bs) = some (Char.ofNat bits) :: chunksFrom none bs := by
  simp [chunksFrom, start, byte, lead]

theorem chunksFrom_lead (byte : b.toNat = v) (lead : lead? v = some ⟨n + 1, bits, low, high⟩) :
    chunksFrom none (b :: bs) = chunksFrom (some ⟨n, bits, low, high⟩) bs := by
  simp [chunksFrom, start, byte, lead]

theorem chunksFrom_more (byte : b.toNat = v + 128) (within : low ≤ v + 128 ∧ v + 128 ≤ high) :
    chunksFrom (some ⟨n + 1, bits, low, high⟩) (b :: bs) =
      chunksFrom (some ⟨n, bits * 64 + v, 0x80, 0xBF⟩) bs := by
  simp [chunksFrom, byte, within]

theorem chunksFrom_last (byte : b.toNat = v + 128) (within : low ≤ v + 128 ∧ v + 128 ≤ high) :
    chunksFrom (some ⟨0, bits, low, high⟩) (b :: bs) =
      some (Char.ofNat (bits * 64 + v)) :: chunksFrom none bs := by
  simp [chunksFrom, byte, within]

end Chunks

theorem toNat_ofNat {n : Nat} (h : n < 256) : (UInt8.ofNat n).toNat = n := by
  simp only [UInt8.toNat_ofNat']
  omega

theorem chunksFrom_encodeChar (c : Char) (bs : List UInt8) :
    chunksFrom none (String.utf8EncodeChar c ++ bs) = some c :: chunksFrom none bs := by
  have valid : c.val.toNat < 0xD800 ∨ 0xDFFF < c.val.toNat ∧ c.val.toNat < 0x110000 := c.valid
  have back : Char.ofNat c.val.toNat = c := Char.ofNat_toNat c
  simp only [String.utf8EncodeChar]
  generalize c.val.toNat = v at valid back ⊢
  -- the cases are those of the encoding, from one byte to four
  split
  · rw [List.cons_append, chunksFrom_one (toNat_ofNat (by omega)) (lead?_one (by omega)), back,
      List.nil_append]
  split
  · rw [List.cons_append, chunksFrom_lead (toNat_ofNat (by omega)) (lead?_two (by omega) (by omega)),
      List.cons_append, chunksFrom_last (toNat_ofNat (by omega)) (by omega), List.nil_append,
      show v / 64 % 32 * 64 + v % 64 = v by omega, back]
  split
  · rw [List.cons_append, chunksFrom_lead (toNat_ofNat (by omega)) (lead?_three (by omega)),
      List.cons_append, chunksFrom_more (toNat_ofNat (by omega)) (by split <;> split <;> omega),
      List.cons_append, chunksFrom_last (toNat_ofNat (by omega)) (by omega), List.nil_append,
      show (v / 4096 % 16 * 64 + v / 64 % 64) * 64 + v % 64 = v by omega, back]
  · rw [List.cons_append, chunksFrom_lead (toNat_ofNat (by omega)) (lead?_four (by omega)),
      List.cons_append, chunksFrom_more (toNat_ofNat (by omega)) (by split <;> split <;> omega),
      List.cons_append, chunksFrom_more (toNat_ofNat (by omega)) (by omega),
      List.cons_append, chunksFrom_last (toNat_ofNat (by omega)) (by omega), List.nil_append,
      show ((v / 262144 % 8 * 64 + v / 4096 % 64) * 64 + v / 64 % 64) * 64 + v % 64 = v by omega,
      back]

theorem chunks_encode (cs : List Char) :
    chunks (cs.flatMap String.utf8EncodeChar) = cs.map some := by
  induction cs with
  | nil => rfl
  | cons c cs ih =>
    rw [List.flatMap_cons, chunks, chunksFrom_encodeChar, ← chunks, ih, List.map_cons]

theorem mapM_some (cs : List Char) : (cs.map some).mapM id = some cs := by
  induction cs with
  | nil => rfl
  | cons c cs ih => simp [ih]

theorem data_encode (cs : List Char) :
    (encode (.ofList cs)).data.toList = cs.flatMap String.utf8EncodeChar := by
  simp [encode, String.toByteArray_ofList, List.utf8Encode]

theorem decode?_encode (s : String) : decode? (encode s) = some s := by
  rw [decode?, ← String.ofList_toList (s := s), data_encode, chunks_encode, mapM_some]
  rfl

end DirectiveRunner.Text.Utf8

namespace DirectiveRunner.Text

def byteLength (cs : List Char) : Nat := (cs.map Char.utf8Size).foldr (· + ·) 0

end DirectiveRunner.Text
