import DirectiveRunner.Proofs.Parse
import DirectiveRunner.Proofs.Token
/-!
# Writing expressions so that they are read back

Every expression that is read has texts that it is written as: all parts of it in parentheses, the
first argument of a call before the name, and blanks between the tokens. Which expressions these are
is said by `WellFormed`, and reading undoes writing on them (`parse_written`).

An expression that is read has a derivation, and each rule makes a well-formed tree of well-formed
trees and tokens. Conversely what is written has a derivation: a tree in parentheses is a primary,
and a primary is a phrase of every looser rule, so no operator takes a part of its neighbour.
-/

namespace DirectiveRunner

open Grammar (constants Ternary Binary Unary Suffixed Primary Arguments Items Statement Statements
  Body Program)

namespace Expr

/-! ## The expressions that are read -/

/-- Expressions other than sequences as they are read: integers have no sign, names are names, and
those of values stand for the values. A call with arguments may have any name, since that name comes
after a dot. -/
inductive Plain : Expr → Prop
  | null : Plain (.literal .null)
  | bool (b : Bool) : Plain (.literal (.bool b))
  | int {n : Int64} : 0 ≤ n → Plain (.literal (.int n))
  | str (s : String) : Plain (.literal (.str s))
  | list {es} : (∀ e ∈ es, Plain e) → Plain (.list es)
  | ident {name} : IsName name → name ∉ constants.map Prod.fst → Plain (.ident name)
  | member {e name} : Plain e → IsName name → Plain (.member e name)
  | index {e k} : Plain e → Plain k → Plain (.index e k)
  | call {name es} : IsName name → (es = [] → name ∉ constants.map Prod.fst) →
    (∀ e ∈ es, Plain e) → Plain (.call name es)
  | not {e} : Plain e → Plain (.not e)
  | negate {e} : Plain e → Plain (.negate e)
  | binary {op l r} : Plain l → Plain r → Plain (.binary op l r)
  | choice {c t u} : Plain c → Plain t → Plain u → Plain (.choice c t u)

/-- Expressions as they are read: several statements, or none. -/
inductive WellFormed : Expr → Prop
  | plain {e} : Plain e → WellFormed e
  | sequence {es} : 2 ≤ es.length → (∀ e ∈ es, Plain e) → WellFormed (.sequence es)

/-- The value of a constant is a literal. -/
theorem plain_constant {name : String} {v : Value} (h : (name, v) ∈ constants) :
    Plain (.literal v) := by
  simp only [constants, List.mem_cons, Prod.mk.injEq, List.not_mem_nil, or_false] at h
  rcases h with ⟨-, rfl⟩ | ⟨-, rfl⟩ | ⟨-, rfl⟩ | ⟨-, rfl⟩
  · exact .bool true
  · exact .bool false
  · exact .null
  · exact .null

end Expr

namespace Grammar

open DirectiveRunner.Expr (Token Plain WellFormed)

mutual

theorem Ternary.isPlain : ∀ {ts e}, Ternary ts e → Token.AllFormed ts → Plain e
  | _, _, .operand h, formed => h.isPlain formed
  | _, _, .choice hc ht hu, formed => by
    simp only [Token.allFormed_append, Token.allFormed_cons] at formed
    exact .choice (hc.isPlain formed.1.1) (ht.isPlain formed.1.2.2) (hu.isPlain formed.2.2)

theorem Binary.isPlain : ∀ {level ts e}, Binary level ts e → Token.AllFormed ts → Plain e
  | _, _, _, .operand _ h, formed => h.isPlain formed
  | _, _, _, .tightest h, formed => h.isPlain formed
  | _, _, _, .operator _ hl hr, formed => by
    simp only [Token.allFormed_append, Token.allFormed_cons] at formed
    exact .binary (hl.isPlain formed.1) (hr.isPlain formed.2.2)

theorem Unary.isPlain : ∀ {ts e}, Unary ts e → Token.AllFormed ts → Plain e
  | _, _, .not h, formed => .not (h.isPlain (Token.allFormed_cons.mp formed).2)
  | _, _, .negate h, formed => .negate (h.isPlain (Token.allFormed_cons.mp formed).2)
  | _, _, .unsigned h, formed => h.isPlain formed

theorem Suffixed.isPlain : ∀ {ts e}, Suffixed ts e → Token.AllFormed ts → Plain e
  | _, _, .primary h, formed => h.isPlain formed
  | _, _, .member _ h, formed => by
    simp only [Token.allFormed_append, Token.allFormed_cons] at formed
    exact .member (h.isPlain formed.1) formed.2.2.1
  | _, _, .call _ h hs, formed => by
    simp only [Token.allFormed_append, Token.allFormed_cons] at formed
    obtain ⟨⟨target, -, named, -, items⟩, -⟩ := formed
    exact .call named nofun (List.forall_mem_cons.mpr ⟨h.isPlain target, hs.isPlain items⟩)
  | _, _, .index h hk, formed => by
    simp only [Token.allFormed_append, Token.allFormed_cons] at formed
    exact .index (h.isPlain formed.1.1) (hk.isPlain formed.1.2.2)

theorem Primary.isPlain : ∀ {ts e}, Primary ts e → Token.AllFormed ts → Plain e
  | _, _, .int _, formed => .int (formed _ List.mem_cons_self)
  | _, _, .str s, _ => .str s
  | _, _, .constant named, _ => Expr.plain_constant named
  | _, _, .ident free, formed => .ident (formed _ List.mem_cons_self) free
  | _, _, .call free hs, formed => by
    simp only [Token.allFormed_append, Token.allFormed_cons] at formed
    exact .call formed.1.1 (fun _ => free) (hs.isPlain formed.1.2.2)
  | _, _, .list hs, formed => by
    simp only [Token.allFormed_append, Token.allFormed_cons] at formed
    exact .list (hs.isPlain formed.1.2)
  | _, _, .paren h, formed => by
    simp only [Token.allFormed_append, Token.allFormed_cons] at formed
    exact h.isPlain formed.1.2

theorem Arguments.isPlain : ∀ {ts es}, Arguments ts es → Token.AllFormed ts →
    ∀ e ∈ es, Plain e
  | _, _, .none, _ => by simp
  | _, _, .some hs, formed => hs.isPlain formed

theorem Items.isPlain : ∀ {ts es}, Items ts es → Token.AllFormed ts → ∀ e ∈ es, Plain e
  | _, _, .last h, formed => by simpa using h.isPlain formed
  | _, _, .more h hs, formed => by
    simp only [Token.allFormed_append, Token.allFormed_cons] at formed
    exact List.forall_mem_cons.mpr ⟨h.isPlain formed.1, hs.isPlain formed.2.2⟩

end

theorem Statement.isPlain {ts : List Token} {e : Expr} (h : Statement ts e)
    (formed : Token.AllFormed ts) : Plain e := by
  cases h with
  | plain h _ => exact h.isPlain formed
  | returned h => exact h.isPlain (Token.allFormed_cons.mp formed).2

theorem Statements.isPlain : ∀ {ts es}, Statements ts es → Token.AllFormed ts →
    ∀ e ∈ es, Plain e
  | _, _, .last h, formed => by simpa using h.isPlain formed
  | _, _, .more h hs, formed => by
    simp only [Token.allFormed_append, Token.allFormed_cons] at formed
    exact List.forall_mem_cons.mpr ⟨h.isPlain formed.1, hs.isPlain formed.2.2⟩

theorem Body.wellFormed {ts : List Token} {e : Expr} (h : Body ts e)
    (formed : Token.AllFormed ts) : WellFormed e := by
  cases h with
  | single h => exact .plain (h.isPlain formed)
  | sequence h several => exact .sequence several (h.isPlain formed)

theorem Program.wellFormed {ts : List Token} {e : Expr} (h : Program ts e)
    (formed : Token.AllFormed ts) : WellFormed e := by
  cases h with
  | bare h => exact h.wellFormed formed
  | terminated h => exact h.wellFormed (Token.allFormed_append.mp formed).1

end Grammar

namespace Expr

/-! ## Writing -/

/-- Tokens in parentheses. -/
def enclosed (ts : List Token) : List Token := .mark .openParen :: ts ++ [.mark .closeParen]

/-- A literal; the other values are written in no expression. -/
def literalTokens : Value → List Token
  | .null => [.ident "null"]
  | .bool true => [.ident "true"]
  | .bool false => [.ident "false"]
  | .int n => [.int n]
  | .str s => [.str s]
  | .list _ | .map _ | .command _ => []

mutual

/-- The tokens an expression is written with. -/
@[simp] def tokens : Expr → List Token
  | .literal v => enclosed (literalTokens v)
  | .list es =>
    enclosed (.mark .openBracket :: [.mark .comma].intercalate (tokensEach es) ++
      [.mark .closeBracket])
  | .ident name => enclosed [.ident name]
  | .member e name => enclosed (tokens e ++ [.mark .dot, .ident name])
  | .index e k =>
    enclosed (tokens e ++ .mark .openBracket :: tokens k ++ [.mark .closeBracket])
  | .call name es =>
    enclosed (match tokensEach es with
      | [] => [.ident name, .mark .openParen, .mark .closeParen]
      | ts :: tss =>
        ts ++ .mark .dot :: .ident name :: .mark .openParen :: [.mark .comma].intercalate tss ++
          [.mark .closeParen])
  | .not e => enclosed (.mark .bang :: tokens e)
  | .negate e => enclosed (.mark .minus :: tokens e)
  | .binary op l r => enclosed (tokens l ++ .mark op.mark :: tokens r)
  | .choice c t u =>
    enclosed (tokens c ++ .mark .question :: tokens t ++ .mark .colon :: tokens u)
  | .sequence es => [.mark .semicolon].intercalate (tokensEach es)
termination_by structural e => e

@[simp] def tokensEach : List Expr → List (List Token)
  | [] => []
  | e :: es => tokens e :: tokensEach es
termination_by structural es => es

end

theorem tokensEach_eq (es : List Expr) : tokensEach es = es.map tokens := by
  induction es with
  | nil => rfl
  | cons e es ih => rw [tokensEach, ih, List.map_cons]

end Expr

/-! ## What is written is derived -/

namespace Grammar

open DirectiveRunner.Expr (Token)

theorem Binary.level_le {ts : List Token} {e : Expr} {level : Nat} (h : Binary level ts e) :
    level ≤ 6 := by
  cases h with
  | operand lt _ => exact lt.le
  | tightest _ => exact le_refl 6
  | operator op _ _ => exact op.level_lt.le

/-- An operand of a level is one of every looser level. -/
theorem Binary.looser {ts : List Token} {e : Expr} {level level' : Nat} (le : level' ≤ level)
    (h : Binary level ts e) : Binary level' ts e := by
  obtain ⟨k, rfl⟩ := Nat.exists_eq_add_of_le le
  induction k with
  | zero => exact h
  | succ k ih => exact ih (Nat.le_add_right _ _) (.operand (by have := h.level_le; omega) h)

theorem Unary.binary {ts : List Token} {e : Expr} (h : Unary ts e) {level : Nat} (le : level ≤ 6) :
    Binary level ts e :=
  .looser le (.tightest h)

theorem Unary.ternary {ts : List Token} {e : Expr} (h : Unary ts e) : Ternary ts e :=
  .operand (h.binary (Nat.zero_le 6))

theorem Suffixed.ternary {ts : List Token} {e : Expr} (h : Suffixed ts e) : Ternary ts e :=
  (Unary.unsigned h).ternary

theorem Primary.unary {ts : List Token} {e : Expr} (h : Primary ts e) : Unary ts e :=
  .unsigned (.primary h)

theorem Primary.ternary {ts : List Token} {e : Expr} (h : Primary ts e) : Ternary ts e :=
  h.unary.ternary

end Grammar

namespace Expr

/-- Expressions in parentheses with commas between them. -/
theorem arguments_tokens {es : List Expr} (h : ∀ e ∈ es, Primary (tokens e) e) :
    Arguments ([.mark .comma].intercalate (es.map tokens)) es := by
  cases es with
  | nil => exact .none
  | cons e es =>
    refine .some ?_
    induction es generalizing e with
    | nil => simpa using Items.last (h e (by simp)).ternary
    | cons e' es ih =>
      have later := ih e' fun x hx => h x (List.mem_cons_of_mem e hx)
      simpa [List.intercalate] using Items.more (h e (by simp)).ternary later

theorem primary_enclosed {ts : List Token} {e : Expr} (h : Ternary ts e) :
    Primary (enclosed ts) e :=
  .paren h

theorem primary_literal {v : Value} {t : Token} (h : Primary [t] (.literal v))
    (same : literalTokens v = [t]) : Primary (tokens (.literal v)) (.literal v) := by
  rw [tokens, same]
  exact primary_enclosed h.ternary

/-- A plain expression is written as a primary. -/
theorem Plain.primary {e : Expr} (h : Plain e) : Primary (tokens e) e := by
  induction h with
  | null => exact primary_literal (t := .ident "null") (.constant (by simp [constants])) rfl
  | bool b =>
    cases b with
    | true => exact primary_literal (t := .ident "true") (.constant (by simp [constants])) rfl
    | false => exact primary_literal (t := .ident "false") (.constant (by simp [constants])) rfl
  | int _ => exact primary_literal (.int _) rfl
  | str s => exact primary_literal (.str s) rfl
  | list _ ih =>
    rw [tokens, tokensEach_eq]
    exact primary_enclosed (Primary.list (arguments_tokens ih)).ternary
  | ident _ free =>
    rw [tokens]
    exact primary_enclosed (Primary.ident free).ternary
  | member _ _ ih =>
    rw [tokens]
    exact primary_enclosed (Suffixed.member _ (.primary ih)).ternary
  | index _ _ ihe ihk =>
    rw [tokens]
    exact primary_enclosed (Suffixed.index (.primary ihe) ihk.ternary).ternary
  | @call name es _ free _ ih =>
    rw [tokens, tokensEach_eq]
    cases es with
    | nil => exact primary_enclosed (Primary.call (free rfl) .none).ternary
    | cons e es =>
      -- the name comes after a dot, so it may be one that stands for a value
      have target := ih e (by simp)
      have items := arguments_tokens fun x hx => ih x (List.mem_cons_of_mem e hx)
      exact primary_enclosed (Suffixed.call name (.primary target) items).ternary
  | not _ ih =>
    rw [tokens]
    exact primary_enclosed (Unary.not ih.unary).ternary
  | negate _ ih =>
    rw [tokens]
    exact primary_enclosed (Unary.negate ih.unary).ternary
  | @binary op _ _ _ _ ihl ihr =>
    rw [tokens]
    have lt := op.level_lt
    have joined := Binary.operator op (ihl.unary.binary lt.le) (ihr.unary.binary lt)
    exact primary_enclosed (.operand (.looser (Nat.zero_le _) joined))
  | choice _ _ _ ihc iht ihu =>
    rw [tokens]
    exact primary_enclosed (.choice (ihc.unary.binary (Nat.zero_le 6)) iht.ternary ihu.ternary)

/-- A plain expression is written as a statement, since it begins with a parenthesis. -/
theorem Plain.statement {e : Expr} (h : Plain e) : Statement (tokens e) e := by
  refine .plain h.primary.ternary ?_
  cases h <;> simp [enclosed]

theorem statements_tokens {e : Expr} {es : List Expr} (h : ∀ x ∈ e :: es, Plain x) :
    Statements ([.mark .semicolon].intercalate ((e :: es).map tokens)) (e :: es) := by
  induction es generalizing e with
  | nil => simpa using Statements.last (h e (by simp)).statement
  | cons e' es ih =>
    have later := ih fun x hx => h x (List.mem_cons_of_mem e hx)
    simpa [List.intercalate] using Statements.more (h e (by simp)).statement later

/-- A well-formed expression is written as a program. -/
theorem WellFormed.program {e : Expr} (h : WellFormed e) : Program (tokens e) e := by
  cases h with
  | plain h => exact .bare (.single h.statement)
  | @sequence es several h =>
    rw [tokens, tokensEach_eq]
    match es, several with
    | _ :: _ :: _, several => exact .bare (.sequence (statements_tokens h) several)

/-! ## What is written is well formed -/

theorem allFormed_intercalate {m : Mark} {tss : List (List Token)}
    (h : ∀ ts ∈ tss, Token.AllFormed ts) : Token.AllFormed ([.mark m].intercalate tss) := by
  induction tss with
  | nil => exact Token.allFormed_nil
  | cons ts tss ih =>
    have first := h ts (by simp)
    have later := ih fun us hus => h us (List.mem_cons_of_mem ts hus)
    cases tss with
    | nil => simpa using first
    | cons us tss => simpa [List.intercalate_cons_cons, first] using later

theorem allFormed_separated {m : Mark} {es : List Expr} (h : ∀ e ∈ es, Token.AllFormed (tokens e)) :
    Token.AllFormed ([.mark m].intercalate (es.map tokens)) :=
  allFormed_intercalate (by simpa using h)

@[simp] theorem allFormed_enclosed {ts : List Token} :
    Token.AllFormed (enclosed ts) ↔ Token.AllFormed ts := by
  simp [enclosed]

/-- The names that stand for values are names. -/
theorem isName_of_constant {name : String} (h : name ∈ constants.map Prod.fst) : IsName name := by
  have table : ∀ name ∈ constants.map Prod.fst, tokenize name.toList = .ok [.ident name] := by
    decide +kernel
  exact table name h

theorem Plain.allFormed {e : Expr} (h : Plain e) : Token.AllFormed (tokens e) := by
  induction h with
  | null => simpa [literalTokens] using isName_of_constant (by simp [constants])
  | bool b =>
    cases b <;> simpa [literalTokens] using isName_of_constant (by simp [constants])
  | int nonneg => simpa [literalTokens] using nonneg
  | str s => simp [literalTokens]
  | list _ ih => simpa [tokensEach_eq] using allFormed_separated ih
  | ident named _ => simpa using named
  | member _ named ih => simpa using ⟨ih, named⟩
  | index _ _ ihe ihk => simpa using ⟨ihe, ihk⟩
  | @call name es named _ _ ih =>
    cases es with
    | nil => simpa using named
    | cons e es =>
      have target := ih e (by simp)
      have items : Token.AllFormed ([.mark .comma].intercalate (es.map tokens)) :=
        allFormed_separated fun x hx => ih x (List.mem_cons_of_mem e hx)
      simpa [tokensEach_eq] using ⟨target, named, items⟩
  | not _ ih => simpa using ih
  | negate _ ih => simpa using ih
  | binary _ _ ihl ihr => simpa using ⟨ihl, ihr⟩
  | choice _ _ _ ihc iht ihu => simpa using ⟨ihc, iht, ihu⟩

theorem WellFormed.allFormed {e : Expr} (h : WellFormed e) : Token.AllFormed (tokens e) := by
  cases h with
  | plain h => exact h.allFormed
  | sequence _ h =>
    rw [tokens, tokensEach_eq]
    exact allFormed_separated fun e he => (h e he).allFormed

/-! ## Reading and writing -/

theorem wellFormed_of_parse {source : String} {e : Expr} (h : Expr.parse source = .ok e) :
    WellFormed e := by
  cases read : tokenize source.toList with
  | error fault =>
    rw [Expr.parse, read] at h
    cases h
  | ok ts =>
    have derived := Parse.program_of_parseTokens ((Parse.parse_of_tokenize read).mp h)
    exact derived.wellFormed (tokenize_eq_ok_iff.mp read).allFormed

theorem parse_of_spaced {e : Expr} (h : WellFormed e) {text : String}
    (spaced : Spaced (tokens e) text.toList) : Expr.parse text = .ok e :=
  (Parse.parse_of_tokenize (tokenize_of_spaced spaced h.allFormed)).mpr
    (Parse.parseTokens_of_program h.program)

/-- A name is an expression by itself, unless it names a constant or starts a statement; blanks
around it do not matter. -/
theorem parse_ident {source name : String} (h : tokenize source.toList = .ok [.ident name])
    (unreserved : name ∉ constants.map Prod.fst) (expression : name ≠ "return") :
    Expr.parse source = .ok (.ident name) := by
  have plain : [Token.ident name].head? ≠ some (.ident "return") := by simpa using expression
  have program : Program [.ident name] (.ident name) :=
    .bare (.single (.plain (Primary.ident unreserved).ternary plain))
  exact (Parse.parse_of_tokenize h).mpr (Parse.parseTokens_of_program program)

/-- Tokens written with a space after each of them. -/
def spaced (ts : List Token) : List Char := ts.flatMap fun t => t.written ++ [' ']

theorem spaced_spaced (ts : List Token) : Spaced ts (spaced ts) := by
  induction ts with
  | nil => exact .nil
  | cons t ts ih =>
    have after : Spaced ts (' ' :: spaced ts) := .blank (by decide) ih
    simpa [spaced] using Spaced.token (t := t) (by simp; decide) after

/-- **Reading undoes writing.** The well-formed expressions are those that are read from some text,
and each of them is read from all texts that it is written as. -/
theorem parse_written :
    (∀ e, WellFormed e ↔ ∃ source, Expr.parse source = .ok e) ∧
      ∀ e, WellFormed e → ∀ text : String, Spaced (tokens e) text.toList →
        Expr.parse text = .ok e := by
  refine ⟨fun e => ⟨fun h => ?_, fun ⟨source, read⟩ => wellFormed_of_parse read⟩,
    fun e h text written => parse_of_spaced h written⟩
  refine ⟨.ofList (spaced (tokens e)), parse_of_spaced h ?_⟩
  rw [String.toList_ofList]
  exact spaced_spaced _

/-- A method may have the name of a value, and a text may hold quotes. -/
theorem parse_written_method :
    WellFormed (.call "true" [.ident "x", .literal (.str "it's")]) ∧
      Expr.parse "( ( x ) . true ( ( 'it\\'s' ) ) ) " =
        .ok (.call "true" [.ident "x", .literal (.str "it's")]) := by
  have named : IsName "x" := isName_iff.mpr ⟨'x', [], rfl, by decide, by simp⟩
  have formed : WellFormed (.call "true" [.ident "x", .literal (.str "it's")]) := by
    refine .plain (.call (isName_of_constant (by simp [constants])) nofun ?_)
    simpa using ⟨.ident named (by simp [constants]), .str "it's"⟩
  exact ⟨formed, parse_written.2 _ formed _ (spaced_spaced _)⟩

end Expr

end DirectiveRunner
