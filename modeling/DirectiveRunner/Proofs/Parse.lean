import DirectiveRunner.Proofs.Grammar
import Mathlib.Tactic.IntervalCases
/-!
# Reading is deriving

The descent over the tokens finds exactly the trees that the grammar derives
(`parse_ok_iff_program`). One way each function is followed through its branches: what it used up is
a phrase of its rule, and what it left is the rest (`ternary_begins` and its companions). The other
way the derivation is followed: a phrase is read to its end if what comes after cannot go on with it
(`Stops`), and if enough calls are granted.

The calls are counted along the derivation. From one token to the next the descent goes through less
than sixteen of them: the ternary, seven for the operators, one each for signs, suffixes and the
primary, and in parentheses the list and its items. Rules that put the phrase so far on the left are
no rules the descent could follow; there it loops (`chain`, `suffixes`), and the induction says
where in the loop it is after the phrase and with how many calls left.

The grammar is therefore unambiguous, since the descent is a function.
-/

namespace DirectiveRunner.Parse

open DirectiveRunner.Expr (Token Mark BinaryOp tokenize)
open DirectiveRunner.Grammar (Ternary Binary Unary Suffixed Primary Arguments Items Statement
  Statements Body Program)

/-! ## The tables -/

/-- The operators of a level by its number. -/
def levelAt (k : Nat) : Level := levels.getD k []

theorem drop_levels {k : Nat} (h : k < 6) : levels.drop k = levelAt k :: levels.drop (k + 1) := by
  interval_cases k <;> rfl

/-- A token stands for an operator of a level exactly if it is how that operator is written. -/
theorem operator?_eq_some_iff {k : Nat} (h : k < 6) {t : Token} {op : BinaryOp} :
    operator? (levelAt k) t = some op ↔ op.level = k ∧ t = .mark op.mark := by
  have table : ∀ p ∈ levelAt k, p.2.level = k ∧ p.1 = p.2.mark := by interval_cases k <;> decide
  constructor
  · intro found
    cases t with
    | mark m =>
      obtain ⟨before, after, listed, _⟩ := List.lookup_eq_some_iff.mp found
      simpa using table (m, op) (by simp [listed])
    | _ => cases found
  · rintro ⟨rfl, rfl⟩
    cases op <;> rfl

theorem keyword?_eq_some_iff {name : String} {v : Value} :
    keyword? name = some v ↔ (name, v) ∈ Grammar.constants := by
  unfold keyword?
  split_ifs with h₁ h₂ h₃
  · simp [Grammar.constants, h₁, eq_comm]
  · simp [Grammar.constants, h₂, eq_comm]
  · rcases (by simpa using h₃ : name = "null" ∨ name = "nil") with rfl | rfl <;>
      simp [Grammar.constants, eq_comm]
  · simp only [Bool.or_eq_true, decide_eq_true_eq, not_or] at h₃
    simp [Grammar.constants, h₁, h₂, h₃]

theorem keyword?_eq_none_iff {name : String} :
    keyword? name = none ↔ name ∉ Grammar.constants.map Prod.fst := by
  simp only [keyword?, Grammar.constants]
  split_ifs <;> simp_all

/-! ## What is read is derived -/

theorem bind_eq_ok {ε α β : Type} {x : Except ε α} {f : α → Except ε β} {y : β} :
    (x >>= f) = .ok y ↔ ∃ a, x = .ok a ∧ f a = .ok y := by
  cases x with
  | error e => simp [bind, Except.bind]
  | ok a => simp [bind, Except.bind]

theorem expect_ok {m : Mark} {ts rest : List Token} (h : expect m ts = .ok rest) :
    ts = .mark m :: rest := by
  cases ts with
  | nil => cases h
  | cons t ts =>
    rw [expect] at h
    split at h
    · next same =>
      cases h
      rw [same]
    · cases h

section Primary

variable (n : Nat) (ts : List Token)

theorem primary_name (name : String) : primary (n + 1) (.ident name :: ts) =
    match keyword? name with
    | some v => .ok (.literal v, ts)
    | none =>
      match ts with
      | .mark .openParen :: ts => do
        let (es, ts) ← arguments n .closeParen ts
        return (.call name es, ts)
      | ts => .ok (.ident name, ts) := rfl

theorem primary_openParen : primary (n + 1) (.mark .openParen :: ts) = (do
    let (e, ts) ← ternary n ts
    let ts ← expect .closeParen ts
    return (e, ts)) := rfl

theorem primary_openBracket : primary (n + 1) (.mark .openBracket :: ts) = (do
    let (es, ts) ← arguments n .closeBracket ts
    return (.list es, ts)) := rfl

end Primary

/-- Some tokens begin with a phrase of a kind that has a value, and the rest follows it. -/
def Begins {α : Type} (P : List Token → α → Prop) (ts : List Token) (x : α)
    (rest : List Token) : Prop :=
  ∃ used, ts = used ++ rest ∧ P used x

theorem eq_of_head? {ts : List Token} {t : Token} (h : ts.head? = some t) : ts = t :: ts.tail := by
  cases ts with
  | nil => cases h
  | cons u us =>
    cases h
    rfl

mutual

theorem ternary_begins : ∀ {n : Nat} {ts : List Token} {e : Expr} {rest : List Token},
    ternary n ts = .ok (e, rest) → Begins Ternary ts e rest
  | 0, _, _, _, h => by cases h
  | n + 1, ts, e, rest, h => by
    rw [ternary] at h
    rw [bind_eq_ok] at h
    obtain ⟨⟨c, ts₁⟩, read, h⟩ := h
    obtain ⟨cs, rfl, hc⟩ := binary_begins (Nat.zero_le 6) read
    simp only at h
    split at h
    · next us =>
      rw [bind_eq_ok] at h
      obtain ⟨⟨t, ts₂⟩, read, h⟩ := h
      obtain ⟨ts, rfl, ht⟩ := ternary_begins read
      rw [bind_eq_ok] at h
      obtain ⟨ts₃, colon, h⟩ := h
      obtain rfl := expect_ok colon
      rw [bind_eq_ok] at h
      obtain ⟨⟨u, ts₄⟩, read, h⟩ := h
      obtain ⟨us, rfl, hu⟩ := ternary_begins read
      cases h
      exact ⟨_, by simp, .choice hc ht hu⟩
    · cases h
      exact ⟨cs, rfl, .operand hc⟩

theorem binary_begins : ∀ {n k : Nat} {ts : List Token} {e : Expr} {rest : List Token}, k ≤ 6 →
    binary n (levels.drop k) ts = .ok (e, rest) → Begins (Binary k) ts e rest
  | 0, k, _, _, _, _, h => by
    cases h
  | n + 1, k, ts, e, rest, hk, h => by
    rcases Nat.lt_or_eq_of_le hk with lt | rfl
    · rw [drop_levels lt, binary] at h
      rw [bind_eq_ok] at h
      obtain ⟨⟨l, ts₁⟩, read, h⟩ := h
      obtain ⟨ls, rfl, hl⟩ := binary_begins lt read
      obtain ⟨us, rfl, he⟩ := chain_begins lt (.operand lt hl) h
      exact ⟨_, by simp, he⟩
    · obtain ⟨us, rfl, he⟩ := unary_begins (n := n) h
      exact ⟨us, rfl, .tightest he⟩

theorem chain_begins : ∀ {n k : Nat} {ls ts : List Token} {l e : Expr} {rest : List Token}, k < 6 →
    Binary k ls l → chain n (levelAt k) (levels.drop (k + 1)) l ts = .ok (e, rest) →
    Begins (fun us e => Binary k (ls ++ us) e) ts e rest
  | 0, _, _, _, _, _, _, _, _, h => by cases h
  | n + 1, k, ls, [], l, e, rest, _, hl, h => by
    cases h
    exact ⟨[], rfl, by simpa using hl⟩
  | n + 1, k, ls, t :: ts, l, e, rest, hk, hl, h => by
    rw [chain] at h
    split at h
    · cases h
      exact ⟨[], rfl, by simpa using hl⟩
    · next op found =>
      obtain ⟨rfl, rfl⟩ := (operator?_eq_some_iff hk).mp found
      rw [bind_eq_ok] at h
      obtain ⟨⟨r, ts₁⟩, read, h⟩ := h
      obtain ⟨rs, rfl, hr⟩ := binary_begins hk read
      obtain ⟨us, rfl, he⟩ := chain_begins hk (.operator op hl hr) h
      exact ⟨.mark op.mark :: rs ++ us, by simp, by simpa using he⟩

theorem unary_begins : ∀ {n : Nat} {ts : List Token} {e : Expr} {rest : List Token},
    unary n ts = .ok (e, rest) → Begins Unary ts e rest
  | 0, _, _, _, h => by cases h
  | n + 1, ts, e, rest, h => by
    unfold unary at h
    split at h
    · cases h
    · rw [bind_eq_ok] at h
      obtain ⟨⟨e, ts₁⟩, read, h⟩ := h
      obtain ⟨us, rfl, he⟩ := unary_begins read
      cases h
      exact ⟨_, rfl, .not he⟩
    · rw [bind_eq_ok] at h
      obtain ⟨⟨e, ts₁⟩, read, h⟩ := h
      obtain ⟨us, rfl, he⟩ := unary_begins read
      cases h
      exact ⟨_, rfl, .negate he⟩
    · rw [bind_eq_ok] at h
      obtain ⟨⟨e, ts₁⟩, read, h⟩ := h
      obtain ⟨us, rfl, he⟩ := primary_begins read
      obtain ⟨vs, rfl, hs⟩ := suffixes_begins (.primary he) h
      exact ⟨us ++ vs, by simp, .unsigned hs⟩

theorem suffixes_begins : ∀ {n : Nat} {ls ts : List Token} {l e : Expr} {rest : List Token},
    Suffixed ls l → suffixes n l ts = .ok (e, rest) →
    Begins (fun us e => Suffixed (ls ++ us) e) ts e rest
  | 0, _, _, _, _, _, _, h => by cases h
  | n + 1, ls, ts, l, e, rest, hl, h => by
    unfold suffixes at h
    split at h
    · cases h
    · next name _ _ =>
      rw [bind_eq_ok] at h
      obtain ⟨⟨es, ts₂⟩, read, h⟩ := h
      obtain ⟨us, rfl, hes⟩ := arguments_begins read
      obtain ⟨vs, rfl, he⟩ := suffixes_begins (.call name hl hes) h
      exact ⟨.mark .dot :: .ident name :: .mark .openParen :: us ++ .mark .closeParen :: vs,
        by simp, by simpa using he⟩
    · next name _ _ _ =>
      obtain ⟨vs, rfl, he⟩ := suffixes_begins (.member name hl) h
      exact ⟨.mark .dot :: .ident name :: vs, by simp, by simpa using he⟩
    · cases h
    · cases h
    · next ts₁ =>
      rw [bind_eq_ok] at h
      obtain ⟨⟨k, ts₂⟩, read, h⟩ := h
      obtain ⟨us, rfl, hk⟩ := ternary_begins read
      rw [bind_eq_ok] at h
      obtain ⟨ts₃, closed, h⟩ := h
      obtain rfl := expect_ok closed
      obtain ⟨vs, rfl, he⟩ := suffixes_begins (.index hl hk) h
      exact ⟨.mark .openBracket :: us ++ .mark .closeBracket :: vs, by simp, by simpa using he⟩
    · cases h
      exact ⟨[], rfl, by simpa using hl⟩

theorem primary_begins : ∀ {n : Nat} {ts : List Token} {e : Expr} {rest : List Token},
    primary n ts = .ok (e, rest) → Begins Primary ts e rest
  | 0, _, _, _, h => by cases h
  | n + 1, [], _, _, h => by cases h
  | n + 1, .int i :: _, _, _, h => by
    cases h
    exact ⟨_, rfl, .int i⟩
  | n + 1, .str s :: _, _, _, h => by
    cases h
    exact ⟨_, rfl, .str s⟩
  | n + 1, .ident name :: ts, e, rest, h => by
    rw [primary_name] at h
    split at h
    · next v named =>
      cases h
      exact ⟨_, rfl, .constant (keyword?_eq_some_iff.mp named)⟩
    · next unnamed =>
      have free := keyword?_eq_none_iff.mp unnamed
      split at h
      · rw [bind_eq_ok] at h
        obtain ⟨⟨es, ts₂⟩, read, h⟩ := h
        obtain ⟨us, rfl, hes⟩ := arguments_begins read
        cases h
        exact ⟨_, by simp, .call free hes⟩
      · cases h
        exact ⟨_, rfl, .ident free⟩
  | n + 1, .mark m :: ts, e, rest, h => by
    cases m with
    | openParen =>
      rw [primary_openParen, bind_eq_ok] at h
      obtain ⟨⟨e, ts₁⟩, read, h⟩ := h
      obtain ⟨us, rfl, he⟩ := ternary_begins read
      rw [bind_eq_ok] at h
      obtain ⟨ts₂, closed, h⟩ := h
      obtain rfl := expect_ok closed
      cases h
      exact ⟨_, by simp, .paren he⟩
    | openBracket =>
      rw [primary_openBracket, bind_eq_ok] at h
      obtain ⟨⟨es, ts₁⟩, read, h⟩ := h
      obtain ⟨us, rfl, hes⟩ := arguments_begins read
      cases h
      exact ⟨_, by simp, .list hes⟩
    | _ => cases h

theorem arguments_begins : ∀ {n : Nat} {close : Mark} {ts : List Token} {es : List Expr}
    {rest : List Token}, arguments n close ts = .ok (es, rest) →
    Begins Arguments ts es (.mark close :: rest)
  | 0, _, _, _, _, h => by cases h
  | n + 1, close, ts, es, rest, h => by
    rw [arguments] at h
    split at h
    · next closed =>
      cases h
      exact ⟨[], eq_of_head? closed, .none⟩
    · obtain ⟨us, rfl, hes⟩ := moreArguments_begins h
      exact ⟨us, rfl, .some hes⟩

theorem moreArguments_begins : ∀ {n : Nat} {close : Mark} {ts : List Token} {es : List Expr}
    {rest : List Token}, moreArguments n close ts = .ok (es, rest) →
    Begins Items ts es (.mark close :: rest)
  | 0, _, _, _, _, h => by cases h
  | n + 1, close, ts, es, rest, h => by
    rw [moreArguments] at h
    rw [bind_eq_ok] at h
    obtain ⟨⟨e, ts₁⟩, read, h⟩ := h
    obtain ⟨us, rfl, he⟩ := ternary_begins read
    simp only at h
    split at h
    · next closed =>
      cases h
      exact ⟨us, by rw [← eq_of_head? closed], .last he⟩
    · rw [bind_eq_ok] at h
      obtain ⟨ts₂, comma, h⟩ := h
      obtain rfl := expect_ok comma
      rw [bind_eq_ok] at h
      obtain ⟨⟨es, ts₃⟩, read, h⟩ := h
      obtain ⟨vs, rfl, hes⟩ := moreArguments_begins read
      cases h
      exact ⟨_, by simp, .more he hes⟩

end

/-- Reading statements leaves off after some of them, or after a semicolon that ends the text. -/
theorem statements_begins : ∀ {n : Nat} {ts : List Token} {es : List Expr} {rest : List Token},
    statements n ts = .ok (es, rest) → Begins Statements ts es rest ∨
      (rest = [] ∧ Begins Statements ts es [.mark .semicolon])
  | 0, _, _, _, h => by cases h
  | n + 1, ts, es, rest, h => by
    rw [statements, bind_eq_ok] at h
    obtain ⟨⟨e, ts₁⟩, read, h⟩ := h
    -- a keyword at the start is gone before the expression is read
    have first : Begins Statement ts e ts₁ := by
      obtain ⟨us, split, he⟩ := ternary_begins read
      split at split
      · next returns =>
        exact ⟨.ident "return" :: us, by rw [eq_of_head? returns, split]; rfl, .returned he⟩
      · next other =>
        refine ⟨us, split, .plain he fun starts => other ?_⟩
        rw [split, eq_of_head? starts]
        rfl
    obtain ⟨us, rfl, he⟩ := first
    simp only at h
    split at h
    · cases h
      exact .inr ⟨rfl, us, rfl, .last he⟩
    · rw [bind_eq_ok] at h
      obtain ⟨⟨es, ts₂⟩, read, h⟩ := h
      cases h
      rcases statements_begins read with ⟨vs, rfl, hes⟩ | ⟨rfl, vs, rfl, hes⟩
      · exact .inl ⟨us ++ .mark .semicolon :: vs, by simp, .more he hes⟩
      · exact .inr ⟨rfl, us ++ .mark .semicolon :: vs, by simp, .more he hes⟩
    · cases h
      exact .inl ⟨us, rfl, .last he⟩

/-- Several statements make a sequence. -/
theorem ofStatements_body {ts : List Token} : ∀ {es : List Expr}, Statements ts es →
    Body ts (ofStatements es)
  | [_], .last h => .single h
  | _ :: _ :: _, h => .sequence h (by simp)

/-- What the parser accepts is a program. -/
theorem program_of_parseTokens {ts : List Token} {e : Expr} (h : parseTokens ts = .ok (e, [])) :
    Program ts e := by
  rw [parseTokens, bind_eq_ok] at h
  obtain ⟨⟨es, rest⟩, read, h⟩ := h
  cases h
  rcases statements_begins read with ⟨us, rfl, hes⟩ | ⟨_, us, rfl, hes⟩
  · simpa using .bare (ofStatements_body hes)
  · exact .terminated (ofStatements_body hes)

/-! ## What is derived is read -/

/-- Whether an operand of a level goes on with a token: with a suffix, or with an operator of the
level or of a tighter one. -/
def continues (k : Nat) : Token → Prop
  | .mark m =>
    m = .openParen ∨ m = .openBracket ∨ m = .dot ∨ ∃ op : BinaryOp, op.mark = m ∧ k ≤ op.level
  | _ => False

/-- An operand of a level has come to its end where these tokens begin. -/
def Stops (k : Nat) (rest : List Token) : Prop := ∀ t ∈ rest.head?, ¬continues k t

@[simp] theorem stops_cons {k : Nat} {t : Token} {ts : List Token} :
    Stops k (t :: ts) ↔ ¬continues k t := by
  simp [Stops]

namespace Stops

variable {k : Nat} {rest : List Token}

/-- The end of an operand is one of another level that is extended by no further operator. -/
theorem weaken (h : Stops k rest) {k' : Nat}
    (sub : ∀ op : BinaryOp, k' ≤ op.level → k ≤ op.level) : Stops k' rest := by
  intro t ht goes
  refine h t ht ?_
  cases t with
  | mark m =>
    rcases goes with suffix | suffix | suffix | ⟨op, rfl, tight⟩
    · exact .inl suffix
    · exact .inr (.inl suffix)
    · exact .inr (.inr (.inl suffix))
    · exact .inr (.inr (.inr ⟨op, rfl, sub op tight⟩))
  | _ => exact goes

theorem mono (h : Stops k rest) {k' : Nat} (le : k ≤ k') : Stops k' rest :=
  h.weaken fun _ tight => le.trans tight

/-- No operator is tighter than the tightest level. -/
theorem at_tightest (h : Stops 7 rest) : Stops 6 rest :=
  h.weaken fun op tight => absurd op.level_lt (by omega)

/-- An operator ends the operands of tighter levels. -/
theorem operator (op : BinaryOp) (ts : List Token) :
    Stops (op.level + 1) (.mark op.mark :: ts) := by
  rw [stops_cons]
  rintro (suffix | suffix | suffix | ⟨op', same, tight⟩)
  · cases op <;> cases suffix
  · cases op <;> cases suffix
  · cases op <;> cases suffix
  · have looser : op'.level = op.level := by cases op <;> cases op' <;> first | rfl | cases same
    omega

/-- A mark that is no operator and begins no suffix ends every operand. -/
theorem mark {m : Mark}
    (ends : m ∈ [Mark.closeParen, .closeBracket, .comma, .question, .colon, .semicolon])
    (ts : List Token) : Stops k (.mark m :: ts) := by
  rw [stops_cons]
  rintro (rfl | rfl | rfl | ⟨op, rfl, _⟩)
  · simp at ends
  · simp at ends
  · simp at ends
  · cases op <;> simp [BinaryOp.mark] at ends

/-- What ends an operand is no mark that it goes on with. -/
theorem ne_mark (h : Stops k rest) {m : Mark} (goes : continues k (.mark m)) (ts : List Token) :
    rest ≠ .mark m :: ts := by
  rintro rfl
  exact stops_cons.mp h goes

end Stops

theorem expect_self (m : Mark) (ts : List Token) : expect m (.mark m :: ts) = .ok ts := by
  simp [expect]

theorem ok_bind {ε α β : Type} (a : α) (f : α → Except ε β) : (Except.ok a >>= f) = f a := rfl

/-! ### Steps of the descent -/

section Steps

variable {n k : Nat} {ts us vs rest : List Token} {e c t u l r x : Expr} {es : List Expr}

theorem ternary_operand (operand : binary n levels ts = .ok (e, rest))
    (ends : ∀ us, rest ≠ .mark .question :: us) : ternary (n + 1) ts = .ok (e, rest) := by
  simp only [ternary, operand, ok_bind]
  rfl

theorem ternary_choice (condition : binary n levels ts = .ok (c, .mark .question :: us))
    (onTrue : ternary n us = .ok (t, .mark .colon :: vs)) (onFalse : ternary n vs = .ok (u, rest)) :
    ternary (n + 1) ts = .ok (.choice c t u, rest) := by
  simp only [ternary, condition, ok_bind, onTrue, expect_self, onFalse]
  rfl

/-- What comes after an operand of a level has been read: further ones, unless there are no
operators left. -/
def continued (n k : Nat) (e : Expr) (ts : List Token) : Except EvalError (Expr × List Token) :=
  if k < 6 then chain n (levelAt k) (levels.drop (k + 1)) e ts else .ok (e, ts)

theorem binary_operand (lt : k < 6) (operand : binary n (levels.drop (k + 1)) ts = .ok (e, rest)) :
    binary (n + 1) (levels.drop k) ts = continued n k e rest := by
  simp only [drop_levels lt, binary, operand, ok_bind, continued, if_pos lt]

theorem continued_stops (stops : Stops k rest) (fuel : 0 < n) :
    continued n k e rest = .ok (e, rest) := by
  obtain ⟨n, rfl⟩ := Nat.exists_eq_succ_of_ne_zero fuel.ne'
  rw [continued]
  split
  · next lt =>
    cases rest with
    | nil => rfl
    | cons t ts =>
      have none : operator? (levelAt k) t = none := by
        by_contra found
        obtain ⟨op, found⟩ := Option.ne_none_iff_exists'.mp found
        obtain ⟨rfl, rfl⟩ := (operator?_eq_some_iff lt).mp found
        exact stops_cons.mp stops (.inr (.inr (.inr ⟨op, rfl, le_refl _⟩)))
      simp only [chain, none]
  · rfl

theorem continued_operator (op : BinaryOp)
    (operand : binary n (levels.drop (op.level + 1)) ts = .ok (r, rest)) :
    continued (n + 1) op.level l (.mark op.mark :: ts) =
      continued n op.level (.binary op l r) rest := by
  have found := (operator?_eq_some_iff op.level_lt).mpr ⟨rfl, rfl⟩
  simp only [continued, if_pos op.level_lt, chain, found, operand, ok_bind]

theorem unary_not (operand : unary n ts = .ok (e, rest)) :
    unary (n + 1) (.mark .bang :: ts) = .ok (.not e, rest) := by
  simp only [unary, operand, ok_bind]
  rfl

theorem unary_negate (operand : unary n ts = .ok (e, rest)) :
    unary (n + 1) (.mark .minus :: ts) = .ok (.negate e, rest) := by
  simp only [unary, operand, ok_bind]
  rfl

/-- Reads an operand with the suffixes after it. -/
def suffixed (n : Nat) (ts : List Token) : Except EvalError (Expr × List Token) := do
  let (e, ts) ← primary n ts
  suffixes n e ts

/-- A sign begins no operand without signs. -/
theorem unary_suffixed (operand : suffixed n ts = .ok (e, rest)) :
    unary (n + 1) ts = .ok (e, rest) := by
  have unsigned (m : Mark) (sign : m = .bang ∨ m = .minus) (us : List Token) :
      ts ≠ .mark m :: us := by
    rintro rfl
    rw [suffixed, bind_eq_ok] at operand
    obtain ⟨_, impossible, _⟩ := operand
    rcases sign with rfl | rfl <;> cases n <;> cases impossible
  rw [unary]
  · exact operand
  · exact unsigned .bang (.inl rfl)
  · exact unsigned .minus (.inr rfl)

theorem suffixed_primary (operand : primary n ts = .ok (e, rest)) :
    suffixed n ts = suffixes n e rest := by
  simp only [suffixed, operand, ok_bind]

theorem suffixes_stops (stops : Stops k rest) (fuel : 0 < n) :
    suffixes n e rest = .ok (e, rest) := by
  obtain ⟨n, rfl⟩ := Nat.exists_eq_succ_of_ne_zero fuel.ne'
  have dot := stops.ne_mark (m := .dot) (.inr (.inr (.inl rfl)))
  have bracket := stops.ne_mark (m := .openBracket) (.inr (.inl rfl))
  rw [suffixes]
  · exact fun name ts => dot _
  · exact fun name ts => dot _
  · exact fun t ts => dot _
  · exact dot _
  · exact bracket

theorem suffixes_member (name : String) (ends : ∀ us, rest ≠ .mark .openParen :: us) :
    suffixes (n + 1) e (.mark .dot :: .ident name :: rest) = suffixes n (.member e name) rest := by
  rw [suffixes]
  exact ends

theorem suffixes_call (name : String) (args : arguments n .closeParen ts = .ok (es, rest)) :
    suffixes (n + 1) e (.mark .dot :: .ident name :: .mark .openParen :: ts) =
      suffixes n (.call name (e :: es)) rest := by
  simp only [suffixes, args, ok_bind]

theorem suffixes_index (key : ternary n ts = .ok (x, .mark .closeBracket :: rest)) :
    suffixes (n + 1) e (.mark .openBracket :: ts) = suffixes n (.index e x) rest := by
  simp only [suffixes, key, ok_bind, expect_self]

theorem primary_constant {name : String} {v : Value} (named : (name, v) ∈ Grammar.constants) :
    primary (n + 1) (.ident name :: rest) = .ok (.literal v, rest) := by
  rw [primary_name, keyword?_eq_some_iff.mpr named]

theorem primary_ident {name : String} (free : name ∉ Grammar.constants.map Prod.fst)
    (ends : ∀ us, rest ≠ .mark .openParen :: us) :
    primary (n + 1) (.ident name :: rest) = .ok (.ident name, rest) := by
  rw [primary_name, keyword?_eq_none_iff.mpr free]
  simp only

theorem primary_call {name : String} (free : name ∉ Grammar.constants.map Prod.fst)
    (args : arguments n .closeParen ts = .ok (es, rest)) :
    primary (n + 1) (.ident name :: .mark .openParen :: ts) = .ok (.call name es, rest) := by
  rw [primary_name, keyword?_eq_none_iff.mpr free]
  simp only [args, ok_bind]
  rfl

theorem primary_list (items : arguments n .closeBracket ts = .ok (es, rest)) :
    primary (n + 1) (.mark .openBracket :: ts) = .ok (.list es, rest) := by
  rw [primary_openBracket, items, ok_bind]
  rfl

theorem primary_paren (inner : ternary n ts = .ok (e, .mark .closeParen :: rest)) :
    primary (n + 1) (.mark .openParen :: ts) = .ok (e, rest) := by
  rw [primary_openParen, inner, ok_bind]
  simp only [expect_self]
  rfl

theorem arguments_none (close : Mark) :
    arguments (n + 1) close (.mark close :: rest) = .ok ([], rest) := by
  simp [arguments]

theorem arguments_some {close : Mark} (items : moreArguments n close ts = .ok (es, rest))
    (given : ∀ us, ts ≠ .mark close :: us) : arguments (n + 1) close ts = .ok (es, rest) := by
  rw [arguments, if_neg, items]
  exact fun starts => given _ (eq_of_head? starts)

theorem moreArguments_last {close : Mark} (item : ternary n ts = .ok (e, .mark close :: rest)) :
    moreArguments (n + 1) close ts = .ok ([e], rest) := by
  simp only [moreArguments, item, ok_bind]
  simp [pure, Except.pure]

theorem moreArguments_more {close : Mark} (ne : close ≠ .comma)
    (item : ternary n ts = .ok (e, .mark .comma :: us))
    (items : moreArguments n close us = .ok (es, rest)) :
    moreArguments (n + 1) close ts = .ok (e :: es, rest) := by
  simp only [moreArguments, item, ok_bind, expect_self, items]
  simp [ne.symm, pure, Except.pure]

end Steps

/-! ### Phrases

A phrase is read up to its end, given the calls its tokens grant. What is written with the phrase so
far on the left is read by going on from there, so for operators and suffixes it is said where
reading goes on, and with how many calls. -/

theorem exists_calls {n : Nat} (h : 0 < n) : ∃ m, n = m + 1 := ⟨n - 1, by omega⟩

mutual

theorem ternary_reads : ∀ {ts : List Token} {e : Expr}, Ternary ts e →
    ∀ (n : Nat) (rest : List Token), 16 * ts.length ≤ n → Stops 0 rest →
    (∀ us, rest ≠ .mark .question :: us) → ternary n (ts ++ rest) = .ok (e, rest)
  | ts, e, .operand h, n, rest, bound, stops, ends => by
    have some := h.seamed.length_pos
    obtain ⟨n, rfl⟩ := exists_calls (n := n) (by omega)
    obtain ⟨m, left, read⟩ := binary_reads h n rest (by omega) (stops.mono (Nat.zero_le 1))
    rw [continued_stops stops (by omega)] at read
    exact ternary_operand read ends
  | _, _, @Ternary.choice cs ts us _ _ _ hc ht hu, n, rest, bound, stops, ends => by
    simp only [List.length_append, List.length_cons] at bound
    obtain ⟨n, rfl⟩ := exists_calls (n := n) (by omega)
    obtain ⟨m, left, read⟩ := binary_reads hc n
      (.mark .question :: (ts ++ .mark .colon :: us ++ rest)) (by omega) (Stops.mark (by simp) _)
    rw [continued_stops (Stops.mark (by simp) _) (by omega)] at read
    have onTrue := ternary_reads ht n (.mark .colon :: (us ++ rest)) (by omega)
      (Stops.mark (by simp) _) (by simp)
    have onFalse := ternary_reads hu n rest (by omega) stops ends
    simpa using ternary_choice (by simpa using read) (by simpa using onTrue) onFalse

theorem binary_reads : ∀ {k : Nat} {ts : List Token} {e : Expr}, Binary k ts e →
    ∀ (n : Nat) (rest : List Token), 16 * ts.length ≤ n + 1 + k → Stops (k + 1) rest →
    ∃ m, n + 15 ≤ m + 16 * ts.length ∧ binary n (levels.drop k) (ts ++ rest) = continued m k e rest
  | k, ts, e, .operand lt h, n, rest, bound, stops => by
    have some := h.seamed.length_pos
    obtain ⟨n, rfl⟩ := exists_calls (n := n) (by omega)
    obtain ⟨m, left, read⟩ := binary_reads h n rest (by omega) (stops.mono (Nat.le_succ _))
    rw [continued_stops stops (by omega)] at read
    exact ⟨n, by omega, binary_operand lt read⟩
  | _, ts, e, .tightest h, n, rest, bound, stops => by
    have some := h.seamed.length_pos
    obtain ⟨n, rfl⟩ := exists_calls (n := n) (by omega)
    exact ⟨n + 1, by omega, unary_reads h n rest (by omega) stops.at_tightest⟩
  | _, _, _, @Binary.operator ls rs _ _ op hl hr, n, rest, bound, stops => by
    have lt := op.level_lt
    simp only [List.length_append, List.length_cons] at bound ⊢
    -- the loop goes on after the left operand, with the calls that this one left to it
    obtain ⟨m, left, read⟩ := binary_reads hl n (.mark op.mark :: (rs ++ rest)) (by omega)
      (Stops.operator op _)
    obtain ⟨m, rfl⟩ := exists_calls (n := m) (by omega)
    obtain ⟨m', left', read'⟩ := binary_reads hr m rest (by omega) (stops.mono (Nat.le_succ _))
    rw [continued_stops stops (by omega)] at read'
    refine ⟨m, by omega, ?_⟩
    rw [← continued_operator op read']
    simpa using read

theorem unary_reads : ∀ {ts : List Token} {e : Expr}, Unary ts e → ∀ (n : Nat) (rest : List Token),
    16 * ts.length ≤ n + 8 → Stops 6 rest → unary n (ts ++ rest) = .ok (e, rest)
  | _, _, .not h, n, rest, bound, stops => by
    simp only [List.length_cons] at bound
    obtain ⟨n, rfl⟩ := exists_calls (n := n) (by omega)
    exact unary_not (unary_reads h n rest (by omega) stops)
  | _, _, .negate h, n, rest, bound, stops => by
    simp only [List.length_cons] at bound
    obtain ⟨n, rfl⟩ := exists_calls (n := n) (by omega)
    exact unary_negate (unary_reads h n rest (by omega) stops)
  | ts, e, .unsigned h, n, rest, bound, stops => by
    have some := h.seamed.length_pos
    obtain ⟨n, rfl⟩ := exists_calls (n := n) (by omega)
    obtain ⟨m, left, read⟩ := suffixed_reads h n rest (by omega) (stops.ne_mark (.inl rfl))
    exact unary_suffixed (by rw [read, suffixes_stops stops (by omega)])

theorem suffixed_reads : ∀ {ts : List Token} {e : Expr}, Suffixed ts e →
    ∀ (n : Nat) (rest : List Token), 16 * ts.length ≤ n + 9 →
    (∀ us, rest ≠ .mark .openParen :: us) →
    ∃ m, n + 16 ≤ m + 16 * ts.length ∧ suffixed n (ts ++ rest) = suffixes m e rest
  -- sixteen calls are allowed for each token, and reading one takes no more
  | ts, e, .primary h, n, rest, bound, ends => by
    have some := h.seamed.length_pos
    exact ⟨n, by omega, suffixed_primary (primary_reads h n rest bound ends)⟩
  | _, _, @Suffixed.member ts _ name h, n, rest, bound, ends => by
    simp only [List.length_append, List.length_cons, List.length_nil] at bound ⊢
    obtain ⟨m, left, read⟩ := suffixed_reads h n (.mark .dot :: .ident name :: rest) (by omega)
      (by simp)
    obtain ⟨m, rfl⟩ := exists_calls (n := m) (by omega)
    rw [suffixes_member name ends] at read
    exact ⟨m, by omega, by simpa using read⟩
  | _, _, @Suffixed.call ts us _ _ name h hs, n, rest, bound, ends => by
    simp only [List.length_append, List.length_cons, List.length_nil] at bound ⊢
    obtain ⟨m, left, read⟩ := suffixed_reads h n
      (.mark .dot :: .ident name :: .mark .openParen :: (us ++ .mark .closeParen :: rest))
      (by omega) (by simp)
    obtain ⟨m, rfl⟩ := exists_calls (n := m) (by omega)
    have args := arguments_reads hs m rest (.inl rfl) (by omega)
    rw [suffixes_call name args] at read
    exact ⟨m, by omega, by simpa using read⟩
  | _, _, @Suffixed.index ts us _ _ h hk, n, rest, bound, ends => by
    simp only [List.length_append, List.length_cons, List.length_nil] at bound ⊢
    obtain ⟨m, left, read⟩ := suffixed_reads h n
      (.mark .openBracket :: (us ++ .mark .closeBracket :: rest)) (by omega) (by simp)
    obtain ⟨m, rfl⟩ := exists_calls (n := m) (by omega)
    have key := ternary_reads hk m (.mark .closeBracket :: rest) (by omega)
      (Stops.mark (by simp) _) (by simp)
    rw [suffixes_index key] at read
    exact ⟨m, by omega, by simpa using read⟩

theorem primary_reads : ∀ {ts : List Token} {e : Expr}, Primary ts e →
    ∀ (n : Nat) (rest : List Token), 16 * ts.length ≤ n + 9 →
    (∀ us, rest ≠ .mark .openParen :: us) → primary n (ts ++ rest) = .ok (e, rest)
  | _, _, .int i, n, rest, bound, ends => by
    obtain ⟨n, rfl⟩ := exists_calls (n := n) (by simp at bound; omega)
    rfl
  | _, _, .str s, n, rest, bound, ends => by
    obtain ⟨n, rfl⟩ := exists_calls (n := n) (by simp at bound; omega)
    rfl
  | _, _, .constant named, n, rest, bound, ends => by
    obtain ⟨n, rfl⟩ := exists_calls (n := n) (by simp at bound; omega)
    exact primary_constant named
  | _, _, .ident free, n, rest, bound, ends => by
    obtain ⟨n, rfl⟩ := exists_calls (n := n) (by simp at bound; omega)
    exact primary_ident free ends
  | _, _, @Primary.call _ ts _ free hs, n, rest, bound, ends => by
    simp only [List.length_append, List.length_cons, List.length_nil] at bound
    obtain ⟨n, rfl⟩ := exists_calls (n := n) (by omega)
    have args := arguments_reads hs n rest (.inl rfl) (by omega)
    simpa using primary_call free args
  | _, _, @Primary.list ts _ hs, n, rest, bound, ends => by
    simp only [List.length_append, List.length_cons, List.length_nil] at bound
    obtain ⟨n, rfl⟩ := exists_calls (n := n) (by omega)
    have items := arguments_reads hs n rest (.inr rfl) (by omega)
    simpa using primary_list items
  | _, _, @Primary.paren ts _ h, n, rest, bound, ends => by
    simp only [List.length_append, List.length_cons, List.length_nil] at bound
    obtain ⟨n, rfl⟩ := exists_calls (n := n) (by omega)
    have inner := ternary_reads h n (.mark .closeParen :: rest) (by omega)
      (Stops.mark (by simp) _) (by simp)
    simpa using primary_paren inner

theorem arguments_reads : ∀ {ts : List Token} {es : List Expr}, Arguments ts es →
    ∀ {close : Mark} (n : Nat) (rest : List Token), close = .closeParen ∨ close = .closeBracket →
    16 * ts.length + 2 ≤ n → arguments n close (ts ++ .mark close :: rest) = .ok (es, rest)
  | _, _, .none, close, n, rest, closes, bound => by
    obtain ⟨n, rfl⟩ := exists_calls (n := n) (by omega)
    exact arguments_none close
  | ts, es, .some h, close, n, rest, closes, bound => by
    obtain ⟨n, rfl⟩ := exists_calls (n := n) (by omega)
    refine arguments_some (moreArguments_reads h n rest closes (by omega)) ?_
    -- the first item begins like an expression, which no closing mark does
    obtain ⟨t, us, rfl, begins⟩ := h.seamed.head
    rintro vs same
    obtain rfl : t = .mark close := (List.cons.inj same).1
    rcases closes with rfl | rfl <;> cases begins

theorem moreArguments_reads : ∀ {ts : List Token} {es : List Expr}, Items ts es →
    ∀ {close : Mark} (n : Nat) (rest : List Token), close = .closeParen ∨ close = .closeBracket →
    16 * ts.length + 1 ≤ n → moreArguments n close (ts ++ .mark close :: rest) = .ok (es, rest)
  | ts, _, .last h, close, n, rest, closes, bound => by
    obtain ⟨n, rfl⟩ := exists_calls (n := n) (by omega)
    have stops : Stops 0 (.mark close :: rest) :=
      Stops.mark (by rcases closes with rfl | rfl <;> simp) _
    have other : ∀ us, .mark close :: rest ≠ .mark .question :: us := by
      rcases closes with rfl | rfl <;> simp
    exact moreArguments_last (ternary_reads h n (.mark close :: rest) (by omega) stops other)
  | _, _, @Items.more ts us _ _ h hs, close, n, rest, closes, bound => by
    simp only [List.length_append, List.length_cons] at bound
    obtain ⟨n, rfl⟩ := exists_calls (n := n) (by omega)
    have item := ternary_reads h n (.mark .comma :: (us ++ .mark close :: rest)) (by omega)
      (Stops.mark (by simp) _) (by simp)
    have items := moreArguments_reads hs n rest closes (by omega)
    have ne : close ≠ .comma := by rcases closes with rfl | rfl <;> simp
    simpa using moreArguments_more ne item items

end

/-- The keyword of a statement is taken off, and nothing but a semicolon follows. -/
theorem statement_reads {ts : List Token} {e : Expr} (h : Statement ts e) (n : Nat)
    (rest : List Token) (bound : 16 * ts.length ≤ n)
    (ends : rest.head? = none ∨ rest.head? = some (.mark .semicolon)) :
    ternary n (if (ts ++ rest).head? = some (.ident "return") then (ts ++ rest).tail
      else ts ++ rest) = .ok (e, rest) := by
  have stops : Stops 0 rest := by
    rcases ends with none | semicolon
    · simp [Stops, none]
    · rw [eq_of_head? semicolon]
      exact Stops.mark (by simp) _
  have other : ∀ us, rest ≠ .mark .question :: us := by
    rintro us rfl
    simp at ends
  cases h with
  | plain h unmarked =>
    obtain ⟨t, us, rfl, _⟩ := h.seamed.head
    rw [if_neg (by simpa using unmarked)]
    exact ternary_reads h n rest bound stops other
  | @returned ts e h =>
    rw [List.cons_append, if_pos (by rfl)]
    exact ternary_reads h n rest (by simp at bound; omega) stops other

theorem statements_more {n : Nat} {ts us rest : List Token} {e : Expr} {es : List Expr}
    (first : ternary n (if ts.head? = some (.ident "return") then ts.tail else ts) =
      .ok (e, .mark .semicolon :: us))
    (some : us ≠ []) (others : statements n us = .ok (es, rest)) :
    statements (n + 1) ts = .ok (e :: es, rest) := by
  obtain ⟨t, us, rfl⟩ := List.exists_cons_of_ne_nil some
  simp only [statements, first, ok_bind, others]
  rfl

/-- Statements are read up to the end, with or without a semicolon there. -/
theorem statements_reads : ∀ {ts : List Token} {es : List Expr}, Statements ts es →
    ∀ (n : Nat) (rest : List Token), 16 * ts.length < n → rest = [] ∨ rest = [.mark .semicolon] →
    statements n (ts ++ rest) = .ok (es, [])
  | ts, _, .last h, n, rest, bound, ends => by
    obtain ⟨n, rfl⟩ := exists_calls (n := n) (by omega)
    have first := statement_reads h n rest (by omega)
      (by rcases ends with rfl | rfl <;> simp)
    rcases ends with rfl | rfl <;> simp only [statements, first, ok_bind] <;> rfl
  | _, _, @Statements.more ts us _ _ h hs, n, rest, bound, ends => by
    simp only [List.length_append, List.length_cons] at bound
    obtain ⟨n, rfl⟩ := exists_calls (n := n) (by omega)
    have first := statement_reads h n (.mark .semicolon :: (us ++ rest)) (by omega) (.inr rfl)
    have others := statements_reads hs n rest (by omega) ends
    have some : us ++ rest ≠ [] := by
      have := hs.seamed.length_pos
      exact fun none => by simp_all
    rw [List.append_assoc, List.cons_append]
    exact statements_more first some others

/-- The statements of a body. -/
theorem statements_of_body {ts : List Token} {e : Expr} (h : Body ts e) :
    ∃ es, Statements ts es ∧ ofStatements es = e := by
  cases h with
  | single h => exact ⟨_, .last h, rfl⟩
  | @sequence es h several =>
    refine ⟨es, h, ?_⟩
    match es, several with
    | _ :: _ :: _, _ => rfl

/-- The parser accepts every program. -/
theorem parseTokens_of_program {ts : List Token} {e : Expr} (h : Program ts e) :
    parseTokens ts = .ok (e, []) := by
  have body {us rest : List Token} (h : Body us e) (ends : rest = [] ∨ rest = [.mark .semicolon]) :
      parseTokens (us ++ rest) = .ok (e, []) := by
    obtain ⟨es, hs, rfl⟩ := statements_of_body h
    have read := statements_reads hs (callsPerToken * ((us ++ rest).length + 1)) rest
      (by rw [callsPerToken, List.length_append]; omega) ends
    simp only [parseTokens, read, ok_bind]
    rfl
  cases h with
  | bare h => simpa using body h (.inl rfl)
  | terminated h => exact body h (.inr rfl)

/-- A text is read by reading all of its tokens. -/
theorem parse_of_tokenize {source : String} {ts : List Token}
    (read : tokenize source.toList = .ok ts) {e : Expr} :
    Expr.parse source = .ok e ↔ parseTokens ts = .ok (e, []) := by
  rw [Expr.parse, read, ok_bind]
  -- tokens that are left over are an error here only
  rcases parseTokens ts with fault | ⟨e', rest⟩
  · exact ⟨nofun, nofun⟩
  · cases rest with
    | nil => simp [ok_bind, pure, Except.pure]
    | cons t us => simp [ok_bind, throw, throwThe, MonadExceptOf.throw]

/-- **What the parser accepts.** The parser takes all of a run of tokens and gives a tree exactly if
the grammar derives the run with that tree, and so does the reading of a text that has these tokens.
The tokens have no second tree, and every separator in them has an expression after it, unless it is
a semicolon at the end. -/
theorem parse_ok_iff_program (ts : List Token) :
    (∀ e, parseTokens ts = .ok (e, []) ↔ Program ts e) ∧
      (∀ source : String, tokenize source.toList = .ok ts →
        ∀ e, Expr.parse source = .ok e ↔ Program ts e) ∧
      (∀ e e', Program ts e → Program ts e' → e = e') ∧
      ∀ e, Program ts e → (∃ t us, ts = t :: us ∧ Grammar.begins t = true) ∧
        ts.IsChain Grammar.Seam ∧ ts.getLast? ≠ some (.mark .comma) := by
  have accepts (e : Expr) : parseTokens ts = .ok (e, []) ↔ Program ts e :=
    ⟨program_of_parseTokens, parseTokens_of_program⟩
  refine ⟨accepts, fun source read e => ?_, fun e e' h h' => ?_, fun e h => h.seams⟩
  · rw [parse_of_tokenize read, accepts]
  · have same := (parseTokens_of_program h).symm.trans (parseTokens_of_program h')
    exact (Prod.mk.inj (Except.ok.inj same)).1

/-- The call of a method in the second of two statements. -/
theorem parse_ok_iff_program_method :
    Program [.ident "return", .int 1, .mark .semicolon, .ident "x", .mark .dot, .ident "f",
      .mark .openParen, .int 2, .mark .closeParen]
      (.sequence [.literal (.int 1), .call "f" [.ident "x", .literal (.int 2)]]) ∧
    Expr.parse "return 1; x.f(2)" =
      .ok (.sequence [.literal (.int 1), .call "f" [.ident "x", .literal (.int 2)]]) := by
  have theory := parse_ok_iff_program [.ident "return", .int 1, .mark .semicolon, .ident "x",
    .mark .dot, .ident "f", .mark .openParen, .int 2, .mark .closeParen]
  have derived := (theory.1 _).mp (by rfl)
  exact ⟨derived, (theory.2.1 _ (by decide +kernel) _).mpr derived⟩

end DirectiveRunner.Parse
