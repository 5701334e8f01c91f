import DirectiveRunner.Expr.Token
import Mathlib.Data.List.Find
import Mathlib.Data.List.Infix
import Mathlib.Data.List.TakeWhile
/-!
# Texts and their tokens

The lexical grammar of expressions, as a relation between texts and tokens, and the proof that the
scanner decides it:

    tokenize cs = .ok ts ↔ Lexed cs ts

A text is cut into words with blanks between them. A word depends on what comes after it, since it
is as long as possible (`Word`). If no word goes on with the first character of a text, the text can be
put after another one, and its tokens come after the tokens of that (`Lexed.append`).

The way back is not unique, for any blanks may stand between words. `Spaced` are the texts in which
each token is written in one fixed way and followed by a blank, unless the text ends there; no word
goes on with a blank, so these have the tokens they are written from (`tokenize_of_spaced`).
-/

namespace DirectiveRunner.Expr

/-! ## Classes of characters -/

/-- The blanks one by one. -/
def blanks : List Char :=
  [0x09, 0x0A, 0x0B, 0x0C, 0x0D, 0x20, 0x85, 0xA0, 0x1680, 0x2000, 0x2001, 0x2002, 0x2003, 0x2004,
    0x2005, 0x2006, 0x2007, 0x2008, 0x2009, 0x200A, 0x2028, 0x2029, 0x202F, 0x205F, 0x3000].map
    Char.ofNat

theorem mem_blanks {c : Char} (h : Text.isBlank c = true) : c ∈ blanks := by
  rw [← Char.ofNat_toNat c]
  refine List.mem_map_of_mem ?_
  simp only [Text.isBlank, Bool.or_eq_true, Bool.and_eq_true, decide_eq_true_eq] at h
  simp only [List.mem_cons, List.not_mem_nil, or_false]
  omega

def digits : List Char := ['0', '1', '2', '3', '4', '5', '6', '7', '8', '9']

theorem mem_digits {c : Char} (h : isDigit c = true) : c ∈ digits := by
  have range : 48 ≤ c.toNat ∧ c.toNat ≤ 57 := by
    simp only [isDigit, Text.isDigitOf, Option.any_eq_true, Text.digitValue?] at h
    obtain ⟨d, value, small⟩ := h
    simp only [Bool.and_eq_true, decide_eq_true_eq] at value small
    split_ifs at value <;> simp only [Option.some.injEq] at value <;> omega
  rw [← Char.ofNat_toNat c]
  refine (List.mem_map_of_mem (f := Char.ofNat) (l := List.range' 48 10) ?_ :)
  simp only [List.mem_range'_1]
  omega

/-- The blanks beyond U+0080. -/
def wideBlanks : List (Nat × Nat) :=
  [(0x85, 0x85), (0xA0, 0xA0), (0x1680, 0x1680), (0x2000, 0x200A), (0x2028, 0x2029),
    (0x202F, 0x202F), (0x205F, 0x205F), (0x3000, 0x3000)]

/-- A blank is part of no word of any script. -/
theorem not_isWord_of_isBlank {c : Char} (h : Text.isBlank c = true) :
    Text.isWord c = false ∧ Text.isNumber c = false := by
  by_cases small : c.toNat < 0x80
  · have table : blanks.all (fun c => decide (c.isAlphanum = false ∧ c ≠ '_' ∧ c.isDigit = false)) =
        true := by decide
    obtain ⟨letter, score, digit⟩ :=
      of_decide_eq_true (List.all_eq_true.mp table c (mem_blanks h))
    simp [Text.isWord, Text.isNumber, small, letter, score, digit]
  · have inside : Text.inRanges wideBlanks c.toNat = true := by
      simp only [Text.isBlank, Bool.or_eq_true, Bool.and_eq_true, decide_eq_true_eq] at h
      simp only [Text.inRanges, wideBlanks, List.any_cons, List.any_nil, Bool.or_eq_true,
        Bool.and_eq_true, decide_eq_true_eq, Bool.false_eq_true]
      omega
    -- the ranges are compared with one another, which is less to do than with each blank
    have apart : Text.apart wideBlanks (Text.alphabeticRanges ++ Text.markRanges ++
        Text.decimalRanges ++ Text.connectorRanges ++ Text.numberRanges ++ [(0x200C, 0x200D)]) =
        true := by decide +kernel
    have outside := Text.inRanges_eq_false_of_apart apart inside
    simp only [Text.inRanges_append, Bool.or_eq_false_iff] at outside
    obtain ⟨⟨⟨⟨⟨letter, mark⟩, digit⟩, connector⟩, number⟩, joiner⟩ := outside
    have joiners : c.toNat ≠ 0x200C ∧ c.toNat ≠ 0x200D := by
      constructor <;> rintro same <;> simp [Text.inRanges, same] at joiner
    simp [Text.isWord, Text.isNumber, Text.isMark, small, letter, mark, digit, connector, number,
      joiners]

/-- A blank is part of no word of an expression. -/
theorem not_word_of_isBlank {c : Char} (h : Text.isBlank c = true) :
    startsName c = false ∧ continuesName c = false ∧ isDigit c = false ∧
      c ∉ ['\'', '"', '=', '&', '|'] := by
  obtain ⟨word, number⟩ := not_isWord_of_isBlank h
  have alphabetic : Text.isAlphabetic c = false := by
    refine eq_false_of_ne_true fun letter => ?_
    rw [Text.isWord_of_isAlphabetic letter] at word
    cases word
  have table : blanks.all (fun c => decide (c ≠ '_' ∧ c ≠ '$' ∧ isDigit c = false ∧
      c ∉ ['\'', '"', '=', '&', '|'])) = true := by decide
  obtain ⟨score, dollar, others⟩ := of_decide_eq_true (List.all_eq_true.mp table c (mem_blanks h))
  exact ⟨by simp [startsName, alphabetic, score, dollar],
    by simp [continuesName, Text.isAlphanumeric, alphabetic, number, score, dollar], others⟩

/-- A digit starts neither a name nor a quoted text. -/
theorem not_start_of_isDigit {c : Char} (h : isDigit c = true) :
    startsName c = false ∧ c ≠ '\'' ∧ c ≠ '"' := by
  have table : digits.all (fun c => decide (startsName c = false ∧ c ≠ '\'' ∧ c ≠ '"')) = true := by
    decide +kernel
  exact of_decide_eq_true (List.all_eq_true.mp table c (mem_digits h))

/-! ## Words -/

/-- What a quoted text holds, with its characters after the first quote. -/
inductive Quoted (quote : Char) : List Char → List Char → Prop
  | close : Quoted quote [] [quote]
  | escape {s w} (c : Char) : '\\' ≠ quote → Quoted quote s w →
    Quoted quote (escaped c :: s) ('\\' :: c :: w)
  | plain {s w} {c : Char} : c ≠ quote → c ≠ '\\' → Quoted quote s w →
    Quoted quote (c :: s) (c :: w)

/-- The characters of a token if these characters come after it. -/
inductive Word : List Char → Token → List Char → Prop
  | str {quote s w rest} : quote = '\'' ∨ quote = '"' → Quoted quote s w →
    Word (quote :: w) (.str (.ofList s)) rest
  | int {c ds n rest} : (∀ d ∈ c :: ds, isDigit d = true) → (∀ d ∈ rest.head?, isDigit d = false) →
    readInt (c :: ds) = .ok n → Word (c :: ds) (.int n) rest
  | ident {c cs rest} : startsName c = true → (∀ d ∈ cs, continuesName d = true) →
    (∀ d ∈ rest.head?, continuesName d = false) → Word (c :: cs) (.ident (.ofList (c :: cs))) rest
  | mark {m rest} : Mark.read? (m.text.toList ++ rest) = some m → Word m.text.toList (.mark m) rest

/-- A text with its tokens. -/
inductive Lexed : List Char → List Token → Prop
  | nil : Lexed [] []
  | blank {c cs ts} : Text.isBlank c = true → Lexed cs ts → Lexed (c :: cs) ts
  | word {w t rest ts} : Word w t rest → Lexed rest ts → Lexed (w ++ rest) (t :: ts)

/-! ### Reading words -/

section Quoted

variable {quote c : Char} {r s w : List Char}

theorem readQuoted?_quote : readQuoted? quote (quote :: r) = some ([], 1) := by
  cases r <;> simp [readQuoted?]

theorem readQuoted?_escape (other : '\\' ≠ quote) :
    readQuoted? quote ('\\' :: c :: r) =
      (readQuoted? quote r).map fun (s, n) => (escaped c :: s, n + 2) := by
  simp [readQuoted?, other]

theorem readQuoted?_plain (other : c ≠ quote) (unescaped : c ≠ '\\') :
    readQuoted? quote (c :: r) = (readQuoted? quote r).map fun (s, n) => (c :: s, n + 1) := by
  cases r <;> simp [readQuoted?, other, unescaped]

theorem readQuoted?_of_quoted (h : Quoted quote s w) (rest : List Char) :
    readQuoted? quote (w ++ rest) = some (s, w.length) := by
  induction h with
  | close => exact readQuoted?_quote
  | escape c other _ ih =>
    rw [List.cons_append, List.cons_append, readQuoted?_escape other, ih]
    rfl
  | plain other unescaped _ ih =>
    rw [List.cons_append, readQuoted?_plain other unescaped, ih]
    rfl

theorem quoted_of_readQuoted? {n : Nat} (h : readQuoted? quote r = some (s, n)) :
    Quoted quote s (r.take n) := by
  induction r using readQuoted?.induct quote generalizing s n with
  | case1 => cases h
  | case2 r =>
    rw [readQuoted?_quote] at h
    cases h
    exact .close
  | case3 other => simp [readQuoted?, other] at h
  | case4 d r other ih =>
    rw [readQuoted?_escape other, Option.map_eq_some_iff] at h
    obtain ⟨⟨s, n⟩, read, same⟩ := h
    cases same
    exact .escape d other (ih read)
  | case5 c r other unescaped ih =>
    rw [readQuoted?_plain other unescaped, Option.map_eq_some_iff] at h
    obtain ⟨⟨s, n⟩, read, same⟩ := h
    cases same
    exact .plain other unescaped (ih read)

end Quoted

/-- A run of characters of a class ends where the next character is of another one. -/
theorem takeWhile_append_of_head? {p : Char → Bool} {us vs : List Char} (all : ∀ c ∈ us, p c = true)
    (ends : ∀ c ∈ vs.head?, p c = false) : (us ++ vs).takeWhile p = us := by
  rw [List.takeWhile_append_of_pos all]
  cases vs with
  | nil => simp
  | cons c vs => simp [ends c rfl]

theorem exists_run (p : Char → Bool) (r : List Char) :
    ∃ us vs, r = us ++ vs ∧ r.takeWhile p = us ∧ (∀ c ∈ us, p c = true) ∧
      ∀ c ∈ vs.head?, p c = false := by
  refine ⟨r.takeWhile p, r.dropWhile p, List.takeWhile_append_dropWhile.symm, rfl,
    fun c => List.mem_takeWhile_imp, fun c first => ?_⟩
  have := List.head?_dropWhile_not p r
  rw [Option.mem_def.mp first] at this
  simpa using this

/-- No other kind of token starts like a mark, and none starts with a blank. -/
theorem mark_start (m : Mark) : ∃ c r, m.text.toList = c :: r ∧ Text.isBlank c = false ∧
    isDigit c = false ∧ startsName c = false ∧ c ≠ '\'' ∧ c ≠ '"' := by
  cases m <;> exact ⟨_, _, rfl, by decide +kernel⟩

/-- A word is read as its token. -/
theorem readToken_of_word {w : List Char} {t : Token} {rest : List Char} (h : Word w t rest) :
    ∃ c r, w = c :: r ∧ Text.isBlank c = false ∧
      ∀ offset, readToken offset c (r ++ rest) = .ok (t, r.length) := by
  have visible {c : Char} (word : startsName c = true ∨ isDigit c = true ∨ c ∈ ['\'', '"']) :
      Text.isBlank c = false := by
    by_contra blank
    have none := not_word_of_isBlank (eq_true_of_ne_false blank)
    simp_all
  cases h with
  | @str quote s w _ quotes h =>
    refine ⟨quote, w, rfl, visible (by simp [quotes]), fun offset => ?_⟩
    simp [readToken, quotes, readQuoted?_of_quoted h]
  | @int c ds n _ all ends value =>
    have digit : isDigit c = true := all c (by simp)
    obtain ⟨-, single, double⟩ := not_start_of_isDigit digit
    refine ⟨c, ds, rfl, visible (.inr (.inl digit)), fun offset => ?_⟩
    have run : (ds ++ rest).takeWhile isDigit = ds :=
      takeWhile_append_of_head? (fun d hd => all d (by simp [hd])) ends
    simp [readToken, single, double, digit, run, value, Except.map]
  | @ident c cs _ starts all ends =>
    -- quotes and digits are looked for first, and what starts a name is neither
    have undigit : isDigit c = false := by
      by_contra digit
      simp [not_start_of_isDigit (eq_true_of_ne_false digit)] at starts
    have unquoted : c ≠ '\'' ∧ c ≠ '"' :=
      ⟨by rintro rfl; revert starts; decide, by rintro rfl; revert starts; decide⟩
    refine ⟨c, cs, rfl, visible (.inl starts), fun offset => ?_⟩
    have run := takeWhile_append_of_head? all ends
    simp [readToken, unquoted, undigit, starts, run]
  | @mark m _ read =>
    obtain ⟨c, r, text, blank, digit, name, single, double⟩ := mark_start m
    refine ⟨c, r, text, blank, fun offset => ?_⟩
    have length : m.text.length - 1 = r.length := by simp [← String.length_toList, text]
    rw [text, List.cons_append] at read
    simp [readToken, single, double, digit, name, read, length]

/-- What is read as a token is a word. -/
theorem word_of_readToken {offset n : Nat} {c : Char} {r : List Char} {t : Token}
    (h : readToken offset c r = .ok (t, n)) : Word (c :: r.take n) t (r.drop n) := by
  unfold readToken at h
  split at h
  · next quote =>
    split at h
    · next s n read =>
      cases h
      exact .str (by simpa using quote) (quoted_of_readQuoted? read)
    · cases h
  · split at h
    · next digit =>
      obtain ⟨us, vs, rfl, run, all, ends⟩ := exists_run isDigit r
      rw [run] at h
      cases value : readInt (c :: us) with
      | error e => simp [value, Except.map] at h
      | ok i =>
        simp only [value, Except.map, Except.ok.injEq, Prod.mk.injEq] at h
        obtain ⟨rfl, rfl⟩ := h
        simpa using Word.int (by simpa [digit] using all) ends value
    · split at h
      · next starts =>
        obtain ⟨us, vs, rfl, run, all, ends⟩ := exists_run continuesName r
        rw [run] at h
        cases h
        simpa using Word.ident starts all ends
      · split at h
        · next m read =>
          cases h
          -- the mark begins what is left of the text, so its first character is `c`
          have begun := List.find?_some read
          obtain ⟨rest, split⟩ := List.isPrefixOf_iff_prefix.mp begun
          obtain ⟨c', us, text, -⟩ := mark_start m
          have length : m.text.length - 1 = us.length := by simp [← String.length_toList, text]
          rw [text, List.cons_append] at split
          obtain ⟨rfl, rfl⟩ := List.cons.inj split
          have word : Word m.text.toList (.mark m) rest := .mark (by rw [text]; exact read)
          simpa [length, text] using word
        · cases h

/-! ### Reading texts -/

theorem tokensFrom_word {w : List Char} {t : Token} {rest : List Char} (h : Word w t rest)
    (offset : Nat) : tokensFrom offset 0 (w ++ rest) =
      (tokensFrom (offset + Text.byteLength w) 0 rest).map (t :: ·) := by
  obtain ⟨c, r, rfl, visible, read⟩ := readToken_of_word h
  simp only [List.cons_append, tokensFrom, visible, Bool.false_eq_true, if_false, read]
  rw [tokensFrom_skip, List.take_left, List.drop_left]
  simp [Text.byteLength, Nat.add_assoc]

theorem tokensFrom_of_lexed {cs : List Char} {ts : List Token} (h : Lexed cs ts) (offset : Nat) :
    tokensFrom offset 0 cs = .ok ts := by
  induction h generalizing offset with
  | nil => rfl
  | blank blank _ ih => simp [tokensFrom, blank, ih]
  | word word _ ih => rw [tokensFrom_word word, ih, Except.map]

theorem lexed_of_tokensFrom {offset skip : Nat} {cs : List Char} {ts : List Token}
    (h : tokensFrom offset skip cs = .ok ts) : Lexed (cs.drop skip) ts := by
  induction cs generalizing offset skip ts with
  | nil =>
    cases h
    simpa using Lexed.nil
  | cons c r ih =>
    cases skip with
    | succ n => exact ih h
    | zero =>
      rw [tokensFrom] at h
      split at h
      · next blank => exact .blank blank (ih h)
      · split at h
        · cases h
        · next t n read =>
          cases later : tokensFrom (offset + c.utf8Size) n r with
          | error e => simp [later, Except.map] at h
          | ok us =>
            simp only [later, Except.map, Except.ok.injEq] at h
            subst h
            have lexed := Lexed.word (word_of_readToken read) (ih later)
            simpa using lexed

/-- The scanner finds exactly the tokens of a text. -/
theorem tokenize_eq_ok_iff {cs : List Char} {ts : List Token} :
    tokenize cs = .ok ts ↔ Lexed cs ts :=
  ⟨fun h => by simpa using lexed_of_tokensFrom h, fun h => tokensFrom_of_lexed h 0⟩

/-! ### Texts one after the other -/

/-- A character that no word goes on with. -/
def Ends (c : Char) : Prop :=
  isDigit c = false ∧ continuesName c = false ∧ c ∉ ['=', '&', '|']

theorem ends_of_isBlank {c : Char} (h : Text.isBlank c = true) : Ends c := by
  obtain ⟨-, name, digit, other⟩ := not_word_of_isBlank h
  refine ⟨digit, name, fun mem => other ?_⟩
  exact List.mem_cons_of_mem _ (List.mem_cons_of_mem _ mem)

/-- A mark ends before a character that no word goes on with. -/
theorem read?_text (m : Mark) {rest : List Char} (ends : ∀ c ∈ rest.head?, Ends c) :
    Mark.read? (m.text.toList ++ rest) = some m := by
  cases rest with
  | nil => cases m <;> rfl
  | cons c rest =>
    obtain ⟨-, -, other⟩ := ends c rfl
    simp only [List.mem_cons, List.not_mem_nil, or_false, not_or] at other
    obtain ⟨equal, both, either⟩ := other
    have equal' : ('=' == c) = false := by simpa using Ne.symm equal
    have both' : ('&' == c) = false := by simpa using Ne.symm both
    have either' : ('|' == c) = false := by simpa using Ne.symm either
    cases m <;> simp [Mark.read?, Mark.all, Mark.text, List.isPrefixOf, equal', both', either']

/-- Two characters are enough to tell the mark. -/
theorem read?_append {cs : List Char} (h : 2 ≤ cs.length) (us : List Char) :
    Mark.read? (cs ++ us) = Mark.read? cs := by
  refine List.find?_congr fun m _ => ?_
  have short : m.text.toList.length ≤ 2 := by cases m <;> decide
  rw [Bool.eq_iff_iff, List.isPrefixOf_iff_prefix, List.isPrefixOf_iff_prefix]
  exact List.isPrefix_append_of_length (short.trans h)

theorem forall_head?_append {P : Char → Prop} {cs us : List Char} (h : ∀ c ∈ cs.head?, P c)
    (h' : ∀ c ∈ us.head?, P c) : ∀ c ∈ (cs ++ us).head?, P c := by
  cases cs with
  | nil => exact h'
  | cons c cs => exact h

/-- A word stays a word if something comes after the text that no word goes on with. -/
theorem Word.append {w rest us : List Char} {t : Token} (h : Word w t rest)
    (ends : ∀ c ∈ us.head?, Ends c) : Word w t (rest ++ us) := by
  cases h with
  | str quotes h => exact .str quotes h
  | int all stops value =>
    exact .int all (forall_head?_append stops fun c first => (ends c first).1) value
  | ident starts all stops =>
    exact .ident starts all (forall_head?_append stops fun c first => (ends c first).2.1)
  | @mark m _ read =>
    cases rest with
    | nil => exact .mark (read?_text m ends)
    | cons c rest =>
      have length : 2 ≤ (m.text.toList ++ c :: rest).length := by
        obtain ⟨d, ds, text, -⟩ := mark_start m
        simp [text]
        omega
      exact .mark (by rw [← List.append_assoc, read?_append length, read])

/-- The tokens of two texts, of which the second begins with a character that no word goes on with,
are the tokens of the texts one after the other. -/
theorem Lexed.append {cs us : List Char} {ts vs : List Token} (h : Lexed cs ts) (h' : Lexed us vs)
    (ends : ∀ c ∈ us.head?, Ends c) : Lexed (cs ++ us) (ts ++ vs) := by
  induction h with
  | nil => exact h'
  | blank blank _ ih => exact .blank blank ih
  | word word _ ih =>
    rw [List.append_assoc]
    exact .word (word.append ends) ih

/-! ## Writing texts -/

/-- A text is one name and nothing else. -/
def IsName (name : String) : Prop := tokenize name.toList = .ok [.ident name]

/-- A name is a word by itself. -/
theorem isName_iff {name : String} : IsName name ↔ ∃ c cs, name.toList = c :: cs ∧
    startsName c = true ∧ ∀ d ∈ cs, continuesName d = true := by
  rw [IsName, tokenize_eq_ok_iff]
  constructor
  · -- the word has as many characters as the text, so there is nothing else in it
    suffices found : ∀ {cs ts}, Lexed cs ts → ts = [.ident name] →
        cs.length ≤ name.toList.length → ∃ c r, name.toList = c :: r ∧ startsName c = true ∧
          ∀ d ∈ r, continuesName d = true from fun h => found h rfl (le_refl _)
    intro cs ts h same short
    induction h with
    | nil => cases same
    | blank _ _ ih => exact ih same (by simp at short; omega)
    | word word _ _ =>
      cases word with
      | ident starts all _ =>
        cases same
        exact ⟨_, _, String.toList_ofList, starts, all⟩
      | _ => cases same
  · rintro ⟨c, cs, text, starts, all⟩
    have word : Word (c :: cs) (.ident (.ofList (c :: cs))) [] := .ident starts all (by simp)
    have lexed := Lexed.word word .nil
    rwa [List.append_nil, ← text, String.ofList_toList] at lexed

namespace Token

/-- A token that is written in some text. -/
def WellFormed : Token → Prop
  | int n => 0 ≤ n
  | ident name => IsName name
  | str _ | mark _ => True

/-- A token as it is written; quoted texts are written in single quotes. -/
def written : Token → List Char
  | int n => (showInt n.toInt).toList
  | str s =>
    '\'' :: s.toList.flatMap (fun c => if c = '\'' || c = '\\' then ['\\', c] else [c]) ++ ['\'']
  | ident name => name.toList
  | mark m => m.text.toList

@[simp] theorem wellFormed_int {n : Int64} : (int n).WellFormed ↔ 0 ≤ n := .rfl

@[simp] theorem wellFormed_str (s : String) : (str s).WellFormed := trivial

@[simp] theorem wellFormed_ident {name : String} : (ident name).WellFormed ↔ IsName name := .rfl

@[simp] theorem wellFormed_mark (m : Mark) : (mark m).WellFormed := trivial

/-- Tokens that are written in some text. -/
def AllFormed (ts : List Token) : Prop := ∀ t ∈ ts, t.WellFormed

@[simp] theorem allFormed_nil : AllFormed [] := by simp [AllFormed]

@[simp] theorem allFormed_cons {t : Token} {ts : List Token} :
    AllFormed (t :: ts) ↔ t.WellFormed ∧ AllFormed ts :=
  List.forall_mem_cons

@[simp] theorem allFormed_append {ts us : List Token} :
    AllFormed (ts ++ us) ↔ AllFormed ts ∧ AllFormed us :=
  List.forall_mem_append

end Token

/-- The tokens of a text are well formed. -/
theorem Lexed.allFormed {cs : List Char} {ts : List Token} (h : Lexed cs ts) :
    Token.AllFormed ts := by
  induction h with
  | nil => exact Token.allFormed_nil
  | blank _ _ ih => exact ih
  | word word _ ih =>
    refine Token.allFormed_cons.mpr ⟨?_, ih⟩
    cases word with
    | str | mark => trivial
    | int _ _ value =>
      unfold readInt at value
      split at value
      · split at value
        · next small =>
          cases value
          rw [Token.WellFormed, Int64.le_iff_toInt_le, Int64.toInt_ofNat_of_lt small]
          exact Int.natCast_nonneg _
        · cases value
      · cases value
    | ident starts all _ => exact isName_iff.mpr ⟨_, _, String.toList_ofList, starts, all⟩

/-- Texts in which the tokens are written one after the other, each with a blank after it unless the
text ends there. -/
inductive Spaced : List Token → List Char → Prop
  | nil : Spaced [] []
  | blank {c ts cs} : Text.isBlank c = true → Spaced ts cs → Spaced ts (c :: cs)
  | token {t ts cs} : (∀ c ∈ cs.head?, Text.isBlank c = true) → Spaced ts cs →
    Spaced (t :: ts) (t.written ++ cs)

theorem quoted_written (s : List Char) : Quoted '\'' s
    (s.flatMap (fun c => if c = '\'' || c = '\\' then ['\\', c] else [c]) ++ ['\'']) := by
  induction s with
  | nil => exact .close
  | cons c s ih =>
    by_cases special : c = '\'' ∨ c = '\\'
    · have same : escaped c = c := by rcases special with rfl | rfl <;> rfl
      have next := Quoted.escape c (by decide) ih
      rw [same] at next
      simpa [special] using next
    · simpa [special] using Quoted.plain (not_or.mp special).1 (not_or.mp special).2 ih

theorem written_int {n : Int64} (h : 0 ≤ n) :
    (Token.int n).written = Text.decimal n.toNatClampNeg := by
  have nonneg : 0 ≤ n.toInt := Int64.le_iff_toInt_le.mp h
  have value : n.toInt.natAbs = n.toNatClampNeg := by
    rw [Int64.toNatClampNeg]
    omega
  simp [Token.written, showInt, showNat, Int.not_lt.mpr nonneg, value]

theorem readInt_decimal {k : Nat} (h : k < Nat.pow 2 63) :
    readInt (Text.decimal k) = .ok (Int64.ofNat k) := by
  have read := Text.ofDigits?_digits (by omega : 2 ≤ 10) (by omega) k
  rw [readInt, show Text.ofDigits? 10 (Text.decimal k) = some k from read]
  exact if_pos h

/-- A token is written as a single word. -/
theorem lexed_written {t : Token} (h : t.WellFormed) : Lexed t.written [t] := by
  suffices word : Word t.written t [] by simpa using Lexed.word word .nil
  cases t with
  | int n =>
    obtain ⟨c, ds, numeral⟩ : ∃ c ds, Text.decimal n.toNatClampNeg = c :: ds :=
      List.exists_cons_of_ne_nil Nat.toDigits_ne_nil
    have value : readInt (c :: ds) = .ok n := by
      rw [← numeral, readInt_decimal n.toNatClampNeg_lt, Int64.ofNat_toNatClampNeg n h]
    rw [written_int h, numeral]
    refine .int (fun d hd => ?_) nofun value
    rw [← numeral] at hd
    exact Text.isDigitOf_of_mem_digits (by omega) (by omega) hd
  | str s =>
    have word : Word _ _ [] := .str (.inl rfl) (quoted_written s.toList)
    rwa [String.ofList_toList] at word
  | ident name =>
    obtain ⟨c, cs, text, starts, all⟩ := isName_iff.mp h
    have word : Word (c :: cs) _ [] := .ident starts all nofun
    rwa [← text, String.ofList_toList] at word
  | mark m => exact .mark (read?_text m nofun)

/-- A text of well-formed tokens with blanks between them has these tokens. -/
theorem tokenize_of_spaced {ts : List Token} {cs : List Char} (h : Spaced ts cs)
    (formed : Token.AllFormed ts) : tokenize cs = .ok ts := by
  rw [tokenize_eq_ok_iff]
  induction h with
  | nil => exact .nil
  | blank blank _ ih => exact .blank blank (ih formed)
  | token ends _ ih =>
    have formed := Token.allFormed_cons.mp formed
    exact (lexed_written formed.1).append (ih formed.2) fun c hc => ends_of_isBlank (ends c hc)

end DirectiveRunner.Expr
