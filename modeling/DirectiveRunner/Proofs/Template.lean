import DirectiveRunner.Proofs.Token
import DirectiveRunner.Template
import Mathlib.Data.List.Chain
/-!
# Cutting templates

Cutting a template into segments and writing the segments one after the other are inverse to each
other (`split_unsplit`). What is cut is in a normal form: no text is empty or opens a block, and no
two texts touch. Conversely segments in this form are found again if the code of each block is a
text that has tokens.

The end of a block is looked for without reading its code, with a state that only knows quotes,
backslashes and braces. A word takes this state from `code` back to `code`: outside quoted texts no
word has a quote or a brace, and inside them both the search and the scanner leave out the same
escaped characters. So the brace that closes the block is the first one after the code.
-/

namespace DirectiveRunner.Template

open DirectiveRunner.Expr (Token tokenize Lexed Word Quoted startsName continuesName)

/-! ## The end of a block -/

/-- The state after characters none of which closes the block. -/
def BlockState.run? (state : BlockState) (cs : List Char) : Option BlockState :=
  cs.foldlM BlockState.next? state

namespace BlockState

variable {state state' : BlockState} {cs w : List Char} {c : Char}

theorem run?_cons (state' : BlockState) (step : state.next? c = some state') :
    state.run? (c :: cs) = state'.run? cs := by
  simp [run?, step]

theorem run?_append (first : state.run? w = some state') :
    state.run? (w ++ cs) = state'.run? cs := by
  rw [run?, List.foldlM_append, ← run?, first]
  rfl

end BlockState

/-- The end of a block is not among characters that do not close it. -/
theorem closing?_append {state state' : BlockState} {w : List Char} (h : state.run? w = some state')
    (rest : List Char) :
    closing? state (w ++ rest) = (closing? state' rest).map (· + w.length) := by
  induction w generalizing state with
  | nil =>
    cases h
    simp
  | cons c w ih =>
    obtain ⟨next, step, later⟩ := Option.bind_eq_some_iff.mp h
    rw [List.cons_append, closing?, step]
    simp only [ih later, Option.map_map, List.length_cons]
    rfl

/-- A block ends at a brace. -/
theorem eq_of_next?_eq_none {state : BlockState} {c : Char} (h : state.next? c = none) :
    c = Char.ofNat 125 := by
  cases state with
  | code depth =>
    simp only [BlockState.next?] at h
    split_ifs at h with _ _ brace
    rw [← Char.ofNat_toNat c, brace]
  | quoted depth quote =>
    simp only [BlockState.next?] at h
    split_ifs at h
  | escaped depth quote => cases h

theorem closing?_eq_some {state : BlockState} {cs : List Char} {n : Nat}
    (h : closing? state cs = some n) : ∃ code rest, cs = code ++ Char.ofNat 125 :: rest ∧
      code.length = n := by
  induction cs generalizing state n with
  | nil => cases h
  | cons c cs ih =>
    rw [closing?] at h
    split at h
    · next stop =>
      cases h
      exact ⟨[], cs, by rw [eq_of_next?_eq_none stop]; rfl, rfl⟩
    · obtain ⟨m, later, rfl⟩ := Option.map_eq_some_iff.mp h
      obtain ⟨code, rest, rfl, rfl⟩ := ih later
      exact ⟨c :: code, rest, rfl, rfl⟩

/-! ## Words in a block -/

/-- The characters that change the state. -/
def special : List Char := ['\'', '"', Char.ofNat 123, Char.ofNat 125]

/-- A character that is no quote and no brace. -/
def Neutral (c : Char) : Prop := c ∉ special

/-- A class of characters that has neither quotes nor braces. -/
theorem neutral_of {p : Char → Bool} (h : special.all (fun c => !p c) = true) {c : Char}
    (hc : p c = true) : Neutral c := by
  intro mem
  have excluded := List.all_eq_true.mp h c mem
  simp [hc] at excluded

theorem next?_neutral {c : Char} (h : Neutral c) (depth : Nat) :
    (BlockState.code depth).next? c = some (.code depth) := by
  simp only [Neutral, special, List.mem_cons, List.not_mem_nil, or_false, not_or] at h
  obtain ⟨single, double, opened, closed⟩ := h
  have opened' : c.toNat ≠ 123 := fun e => opened (by rw [← Char.ofNat_toNat c, e])
  have closed' : c.toNat ≠ 125 := fun e => closed (by rw [← Char.ofNat_toNat c, e])
  simp [BlockState.next?, single, double, opened', closed']

theorem run?_neutral {cs : List Char} (h : ∀ c ∈ cs, Neutral c) (depth : Nat) :
    (BlockState.code depth).run? cs = some (.code depth) := by
  induction cs with
  | nil => rfl
  | cons c cs ih =>
    obtain ⟨first, later⟩ := List.forall_mem_cons.mp h
    rw [BlockState.run?_cons (.code depth) (next?_neutral first depth), ih later]

/-- The search leaves a quoted text where the text ends. -/
theorem run?_quoted {quote : Char} {s w : List Char} (h : Quoted quote s w)
    (other : quote ≠ '\\') (depth : Nat) :
    (BlockState.quoted depth quote).run? w = some (.code depth) := by
  induction h with
  | close =>
    rw [BlockState.run?_cons (.code depth) (by simp [BlockState.next?, other])]
    rfl
  | escape c _ _ ih =>
    rw [BlockState.run?_cons (.escaped depth quote) (by simp [BlockState.next?]),
      BlockState.run?_cons (.quoted depth quote) rfl, ih]
  | plain different unescaped _ ih =>
    rw [BlockState.run?_cons (.quoted depth quote)
      (by simp [BlockState.next?, different, unescaped]), ih]

theorem run?_word {w : List Char} {t : Token} {rest : List Char} (h : Word w t rest) (depth : Nat) :
    (BlockState.code depth).run? w = some (.code depth) := by
  cases h with
  | @str quote s w _ quotes h =>
    have other : quote ≠ '\\' := by rcases quotes with rfl | rfl <;> decide
    rw [BlockState.run?_cons (.quoted depth quote) (by simp [BlockState.next?, quotes]),
      run?_quoted h other]
  | int all _ _ =>
    exact run?_neutral (fun c hc => neutral_of (by decide) (all c hc)) depth
  | ident starts all _ =>
    refine run?_neutral (List.forall_mem_cons.mpr ⟨?_, fun c hc => ?_⟩) depth
    · exact neutral_of (p := startsName) (by decide +kernel) starts
    · exact neutral_of (p := continuesName) (by decide +kernel) (all c hc)
  | @mark m _ _ =>
    have table : m.text.toList.all (fun c => decide (c ∉ special)) = true := by
      cases m <;> decide
    have neutral : ∀ c ∈ m.text.toList, c ∉ special := fun c hc =>
      of_decide_eq_true (List.all_eq_true.mp table c hc)
    exact run?_neutral neutral depth

/-- The code of a block does not close it. -/
theorem run?_lexed {code : List Char} {ts : List Token} (h : Lexed code ts) (depth : Nat) :
    (BlockState.code depth).run? code = some (.code depth) := by
  induction h with
  | nil => rfl
  | blank blank _ ih =>
    have neutral := neutral_of (p := Text.isBlank) (by decide) blank
    rw [BlockState.run?_cons (.code depth) (next?_neutral neutral depth), ih]
  | word word _ ih => rw [BlockState.run?_append (run?_word word depth), ih]

/-! ## The form of segments -/

/-- Whether a segment is text that stands for itself. -/
def Segment.isLiteral : Segment → Bool
  | literal _ => true
  | block _ => false

/-- Segments whose texts are neither empty nor open a block, and do not touch each other. -/
structure Normal (segments : List Segment) : Prop where
  literals : ∀ t, .literal t ∈ segments → t ≠ [] ∧ ¬opening <:+: t
  apart : segments.IsChain fun s s' => ¬(s.isLiteral = true ∧ s'.isLiteral = true)

namespace Normal

variable {c : Char} {t code : List Char} {segments : List Segment}

theorem nil : Normal [] := ⟨by simp, .nil⟩

theorem block (h : Normal segments) : Normal (.block code :: segments) where
  literals t mem := h.literals t (by simpa using mem)
  apart := List.isChain_cons.mpr ⟨fun _ _ both => Bool.noConfusion both.1, h.apart⟩

theorem tail {s : Segment} (h : Normal (s :: segments)) : Normal segments where
  literals t mem := h.literals t (List.mem_cons_of_mem s mem)
  apart := h.apart.tail

/-- What comes after text begins with a block, if there is anything. -/
theorem after_literal (h : Normal (.literal t :: segments)) :
    segments = [] ∨ ∃ code later, segments = .block code :: later := by
  match segments, h with
  | [], _ => exact .inl rfl
  | .block code :: later, _ => exact .inr ⟨code, later, rfl⟩
  | .literal t' :: later, h => exact absurd ⟨rfl, rfl⟩ (List.isChain_cons_cons.mp h.apart).1

theorem literal (h : Normal segments) (nonempty : t ≠ []) (plain : ¬opening <:+: t)
    (after : segments = [] ∨ ∃ code later, segments = .block code :: later) :
    Normal (.literal t :: segments) where
  literals t' mem := by
    rcases List.mem_cons.mp mem with same | later
    · cases same
      exact ⟨nonempty, plain⟩
    · exact h.literals t' later
  apart := by
    refine List.isChain_cons.mpr ⟨fun s first both => ?_, h.apart⟩
    rcases after with rfl | ⟨code, later, rfl⟩
    · cases first
    · cases first
      exact Bool.noConfusion both.2

/-- A character that does not open a block goes to the text before or makes one. -/
theorem consLiteral (h : Normal segments) (plain : ¬opening <+: c :: unsplit segments) :
    Normal (consLiteral c segments) := by
  have short : ¬opening <:+: [c] := fun part => absurd part.length_le (by simp [opening])
  match segments, h with
  | [], h => exact h.literal (by simp) short (.inl rfl)
  | .block code :: later, h => exact h.literal (by simp) short (.inr ⟨code, later, rfl⟩)
  | .literal t :: later, h =>
    refine h.tail.literal (by simp) (fun part => ?_) h.after_literal
    rcases List.infix_cons_iff.mp part with first | inside
    · exact plain (first.trans ⟨unsplit later, rfl⟩)
    · exact (h.literals t List.mem_cons_self).2 inside

end Normal

theorem unsplit_consLiteral (c : Char) (segments : List Segment) :
    unsplit (consLiteral c segments) = c :: unsplit segments := by
  match segments with
  | [] | .block _ :: _ | .literal _ :: _ => rfl

theorem splitFrom?_drop (n : Nat) (cs : List Char) :
    splitFrom? n cs = splitFrom? 0 (cs.drop n) := by
  induction cs generalizing n with
  | nil => simp [splitFrom?]
  | cons c r ih =>
    cases n with
    | zero => rfl
    | succ n => exact ih n

theorem splitFrom?_eq_some {skip : Nat} {cs : List Char} {segments : List Segment}
    (h : splitFrom? skip cs = some segments) :
    unsplit segments = cs.drop skip ∧ Normal segments := by
  induction cs generalizing skip segments with
  | nil =>
    cases h
    exact ⟨by simp [unsplit], .nil⟩
  | cons c r ih =>
    cases skip with
    | succ n => exact ih h
    | zero =>
      rw [splitFrom?] at h
      split at h
      · next opens =>
        split at h
        · cases h
        · next n closes =>
          obtain ⟨later, read, rfl⟩ := Option.map_eq_some_iff.mp h
          obtain ⟨written, normal⟩ := ih read
          refine ⟨?_, normal.block⟩
          -- what is left of the template is the mark, the code, the brace and the rest
          obtain ⟨rest, split⟩ := List.isPrefixOf_iff_prefix.mp opens
          obtain ⟨rfl, rfl⟩ := List.cons.inj split
          obtain ⟨code, rest, rfl, rfl⟩ := closing?_eq_some closes
          rw [unsplit, List.flatMap_cons, ← unsplit, written]
          simp [Segment.written, opening]
      · next plain =>
        obtain ⟨later, read, rfl⟩ := Option.map_eq_some_iff.mp h
        obtain ⟨written, normal⟩ := ih read
        rw [List.drop_zero] at written
        refine ⟨by rw [unsplit_consLiteral, written, List.drop_zero], normal.consLiteral ?_⟩
        rwa [written, ← List.isPrefixOf_iff_prefix]

/-- Nothing of a template is lost. -/
theorem unsplit_split {template : String} {segments : List Segment}
    (h : split template = .ok segments) :
    unsplit segments = template.toList ∧ Normal segments := by
  unfold split at h
  split at h
  · next found =>
    cases h
    simpa using splitFrom?_eq_some found
  · cases h

/-! ## Segments are found again -/

theorem splitFrom?_block {code rest : List Char} {ts : List Token} (h : Lexed code ts) :
    splitFrom? 0 ((Segment.block code).written ++ rest) =
      (splitFrom? 0 rest).map (.block code :: ·) := by
  have closes : closing? (.code 0) (code ++ Char.ofNat 125 :: rest) = some code.length := by
    rw [closing?_append (run?_lexed h 0)]
    simp [closing?, BlockState.next?]
  have written : (Segment.block code).written ++ rest =
      '@' :: Char.ofNat 123 :: (code ++ Char.ofNat 125 :: rest) := by
    simp [Segment.written, opening]
  have opens :
      opening.isPrefixOf ('@' :: Char.ofNat 123 :: (code ++ Char.ofNat 125 :: rest)) = true :=
    List.isPrefixOf_iff_prefix.mpr ⟨code ++ Char.ofNat 125 :: rest, rfl⟩
  rw [written, splitFrom?, if_pos opens]
  simp only [List.drop_succ_cons, List.drop_zero, closes, List.take_left]
  rw [splitFrom?_drop]
  simp

/-- A template that is a single block is cut into that block. -/
theorem split_block {template : String} {code : List Char} {ts : List Token}
    (written : template.toList = (Segment.block code).written) (h : Lexed code ts) :
    split template = .ok [.block code] := by
  have cut : splitFrom? 0 ((Segment.block code).written ++ []) = some [.block code] :=
    splitFrom?_block h
  rw [List.append_nil, ← written] at cut
  rw [split, split?, cut]

/-- Text before a block, or at the end, is cut off as a whole. -/
theorem splitFrom?_literal {t : List Char} {segments : List Segment} (nonempty : t ≠ [])
    (plain : ¬opening <:+: t)
    (after : segments = [] ∨ ∃ code later, segments = .block code :: later)
    (read : splitFrom? 0 (unsplit segments) = some segments) :
    splitFrom? 0 (t ++ unsplit segments) = some (.literal t :: segments) := by
  induction t with
  | nil => exact absurd rfl nonempty
  | cons c t ih =>
    have shut : ¬opening <+: c :: (t ++ unsplit segments) := by
      intro opens
      rcases t with _ | ⟨c', t⟩
      · -- the mark would reach into what comes after, which does not go on with a brace
        obtain ⟨rest, split⟩ := opens
        rcases after with rfl | ⟨code, later, rfl⟩
        · cases split
        · simp [opening, unsplit, Segment.written] at split
      · refine plain (List.prefix_of_prefix_length_le opens (List.prefix_append _ _) ?_).isInfix
        simp [opening]
    rw [List.cons_append, splitFrom?, if_neg (mt List.isPrefixOf_iff_prefix.mp shut)]
    cases t with
    | nil =>
      rw [List.nil_append, read]
      rcases after with rfl | ⟨code, later, rfl⟩ <;> rfl
    | cons c' t =>
      rw [ih (by simp) fun part => plain (List.infix_cons part)]
      rfl

theorem splitFrom?_unsplit {segments : List Segment} (h : Normal segments)
    (lexed : ∀ code, .block code ∈ segments → ∃ ts, Lexed code ts) :
    splitFrom? 0 (unsplit segments) = some segments := by
  induction segments with
  | nil => rfl
  | cons s segments ih =>
    have later := ih h.tail fun code mem => lexed code (List.mem_cons_of_mem s mem)
    rw [unsplit, List.flatMap_cons, ← unsplit]
    cases s with
    | literal t =>
      obtain ⟨nonempty, plain⟩ := h.literals t List.mem_cons_self
      exact splitFrom?_literal nonempty plain h.after_literal later
    | block code =>
      obtain ⟨ts, lexed⟩ := lexed code List.mem_cons_self
      rw [splitFrom?_block lexed, later]
      rfl

/-- **Cutting and joining.** A template that is cut is the text of its segments, which are in the
normal form; segments in this form whose codes have tokens are what their text is cut into. -/
theorem split_unsplit :
    (∀ (template : String) (segments : List Segment), split template = .ok segments →
      unsplit segments = template.toList ∧ Normal segments) ∧
    ∀ segments : List Segment, Normal segments →
      (∀ code, .block code ∈ segments → ∃ ts, tokenize code = .ok ts) →
      split (.ofList (unsplit segments)) = .ok segments := by
  refine ⟨fun template segments => unsplit_split, fun segments normal codes => ?_⟩
  have found := splitFrom?_unsplit normal fun code mem =>
    (codes code mem).imp fun ts => Expr.tokenize_eq_ok_iff.mp
  rw [split, String.toList_ofList, split?, found]

/-- A text that ends in the first half of the mark, before a block with a quoted brace. -/
theorem split_unsplit_quotedBrace :
    split "a@@\x7b'\\'\x7d'\x7db" =
        .ok [.literal ['a', '@'], .block ['\'', '\\', '\'', Char.ofNat 125, '\''], .literal ['b']] ∧
      Normal [.literal ['a', '@'], .block ['\'', '\\', '\'', Char.ofNat 125, '\''],
        .literal ['b']] := by
  have normal : Normal [.literal ['a', '@'],
      .block ['\'', '\\', '\'', Char.ofNat 125, '\''], .literal ['b']] :=
    ⟨by simp [opening, List.infix_cons_iff], by simp [Segment.isLiteral]⟩
  suffices cut : split "a@@\x7b'\\'\x7d'\x7db" = .ok [.literal ['a', '@'],
      .block ['\'', '\\', '\'', Char.ofNat 125, '\''], .literal ['b']] from
    ⟨cut, (split_unsplit.1 _ _ cut).2⟩
  refine split_unsplit.2 _ normal fun code mem => ?_
  obtain rfl : code = ['\'', '\\', '\'', Char.ofNat 125, '\''] := by simpa using mem
  exact ⟨[.str "'\x7d"], by decide +kernel⟩

end DirectiveRunner.Template
