import DirectiveRunner.Expr.Parse
import Mathlib.Data.List.Chain
/-!
# The grammar of expressions

The grammar that expressions are read by, as relations between runs of tokens and trees, one
relation for each of its rules:

    program    := ["return"] ternary (";" ["return"] ternary)* [";"]
    ternary    := or ["?" ternary ":" ternary]
    or         := and ("||" and)*
    and        := equality ("&&" equality)*
    equality   := comparison (("==" | "!=") comparison)*
    comparison := additive (("<" | "<=" | ">" | ">=") additive)*
    additive   := term (("+" | "-") term)*
    term       := unary (("*" | "/" | "%") unary)*
    unary      := ("!" | "-") unary | suffixed
    suffixed   := primary ("." ident ["(" args ")"] | "[" ternary "]")*
    primary    := literal | "[" args "]" | ident ["(" args ")"] | "(" ternary ")"

The six rules with operators are one relation, `Binary`, that goes by the level of the operator. A
repetition is written with the phrase so far on its left, which makes operators of one level, and
suffixes, associate to the left. Nothing here says how a phrase is found.

In a phrase nothing is missing after a comma or a semicolon (`Program.seams`): another expression
begins there, unless it is the semicolon that ends the program.
-/

namespace DirectiveRunner

namespace Expr.BinaryOp

/-- How an operator is written. -/
def mark : BinaryOp → Mark
  | or => .either | and => .both | eq => .equal | ne => .unequal | lt => .less | le => .atMost
  | gt => .greater | ge => .atLeast | add => .plus | sub => .minus | mul => .times | div => .slash
  | rem => .percent

/-- How tightly an operator binds. -/
def level : BinaryOp → Nat
  | or => 0
  | and => 1
  | eq | ne => 2
  | lt | le | gt | ge => 3
  | add | sub => 4
  | mul | div | rem => 5

theorem level_lt (op : BinaryOp) : op.level < 6 := by cases op <;> decide

end Expr.BinaryOp

namespace Grammar

open DirectiveRunner.Expr (Token Mark BinaryOp)

/-- The names that stand for values. -/
def constants : List (String × Value) :=
  [("true", .bool true), ("false", .bool false), ("null", .null), ("nil", .null)]

mutual

/-- A choice or an operand of one. -/
inductive Ternary : List Token → Expr → Prop
  | operand {ts e} : Binary 0 ts e → Ternary ts e
  | choice {cs ts us c t u} : Binary 0 cs c → Ternary ts t → Ternary us u →
    Ternary (cs ++ .mark .question :: ts ++ .mark .colon :: us) (.choice c t u)

/-- Operands joined by operators of a level or of a tighter one. -/
inductive Binary : Nat → List Token → Expr → Prop
  | operand {level ts e} : level < 6 → Binary (level + 1) ts e → Binary level ts e
  | tightest {ts e} : Unary ts e → Binary 6 ts e
  | operator {ls rs l r} (op : BinaryOp) : Binary op.level ls l → Binary (op.level + 1) rs r →
    Binary op.level (ls ++ .mark op.mark :: rs) (.binary op l r)

/-- An operand with the signs before it. -/
inductive Unary : List Token → Expr → Prop
  | not {ts e} : Unary ts e → Unary (.mark .bang :: ts) (.not e)
  | negate {ts e} : Unary ts e → Unary (.mark .minus :: ts) (.negate e)
  | unsigned {ts e} : Suffixed ts e → Unary ts e

/-- An operand with the members, calls and indexes after it. -/
inductive Suffixed : List Token → Expr → Prop
  | primary {ts e} : Primary ts e → Suffixed ts e
  | member {ts e} (name : String) : Suffixed ts e →
    Suffixed (ts ++ [.mark .dot, .ident name]) (.member e name)
  | call {ts us e es} (name : String) : Suffixed ts e → Arguments us es →
    Suffixed (ts ++ .mark .dot :: .ident name :: .mark .openParen :: us ++ [.mark .closeParen])
      (.call name (e :: es))
  | index {ts us e k} : Suffixed ts e → Ternary us k →
    Suffixed (ts ++ .mark .openBracket :: us ++ [.mark .closeBracket]) (.index e k)

/-- A literal, list, name, call or an expression in parentheses. -/
inductive Primary : List Token → Expr → Prop
  | int (n : Int64) : Primary [.int n] (.literal (.int n))
  | str (s : String) : Primary [.str s] (.literal (.str s))
  | constant {name v} : (name, v) ∈ constants → Primary [.ident name] (.literal v)
  | ident {name} : name ∉ constants.map Prod.fst → Primary [.ident name] (.ident name)
  | call {name ts es} : name ∉ constants.map Prod.fst → Arguments ts es →
    Primary (.ident name :: .mark .openParen :: ts ++ [.mark .closeParen]) (.call name es)
  | list {ts es} : Arguments ts es →
    Primary (.mark .openBracket :: ts ++ [.mark .closeBracket]) (.list es)
  | paren {ts e} : Ternary ts e → Primary (.mark .openParen :: ts ++ [.mark .closeParen]) e

/-- Any number of expressions with commas between them. -/
inductive Arguments : List Token → List Expr → Prop
  | none : Arguments [] []
  | some {ts es} : Items ts es → Arguments ts es

/-- Expressions with commas between them, at least one. -/
inductive Items : List Token → List Expr → Prop
  | last {ts e} : Ternary ts e → Items ts [e]
  | more {ts us e es} : Ternary ts e → Items us es → Items (ts ++ .mark .comma :: us) (e :: es)

end

/-- An expression after the optional keyword, which is what a `return` at its start always is. -/
inductive Statement : List Token → Expr → Prop
  | plain {ts e} : Ternary ts e → ts.head? ≠ some (.ident "return") → Statement ts e
  | returned {ts e} : Ternary ts e → Statement (.ident "return" :: ts) e

/-- Statements with semicolons between them, at least one. -/
inductive Statements : List Token → List Expr → Prop
  | last {ts e} : Statement ts e → Statements ts [e]
  | more {ts us e es} : Statement ts e → Statements us es →
    Statements (ts ++ .mark .semicolon :: us) (e :: es)

/-- A single statement, or the sequence of several ones. -/
inductive Body : List Token → Expr → Prop
  | single {ts e} : Statement ts e → Body ts e
  | sequence {ts es} : Statements ts es → 2 ≤ es.length → Body ts (.sequence es)

/-- Statements after which there may be a semicolon. -/
inductive Program : List Token → Expr → Prop
  | bare {ts e} : Body ts e → Program ts e
  | terminated {ts e} : Body ts e → Program (ts ++ [.mark .semicolon]) e

/-! ## Seams -/

/-- Whether an expression may begin with a token. -/
def begins : Token → Bool
  | .mark m => m = .bang || m = .minus || m = .openParen || m = .openBracket
  | _ => true

/-- Whether a token separates expressions. -/
def separates : Token → Bool
  | .mark m => m = .comma || m = .semicolon
  | _ => false

/-- Whether two tokens may stand side by side as far as separators go. -/
def Seam (t u : Token) : Prop := separates t = true → begins u = true

/-- A phrase that begins like an expression, does not end in a separator and has an expression after
each of its separators. -/
structure Seamed (ts : List Token) : Prop where
  /-- It begins like an expression. -/
  head : ∃ t us, ts = t :: us ∧ begins t = true
  /-- It does not end in a separator. -/
  last : ∃ us t, ts = us ++ [t] ∧ separates t = false
  /-- An expression begins after each separator. -/
  seams : ts.IsChain Seam

namespace Seamed

variable {ts us : List Token} {t : Token}

theorem length_pos (h : Seamed ts) : 0 < ts.length := by
  obtain ⟨_, _, rfl, _⟩ := h.head
  simp

/-- Any token may be followed by what begins like an expression. -/
theorem seam_head (h : Seamed ts) (t : Token) : ∀ u ∈ ts.head?, Seam t u := by
  obtain ⟨u, us, rfl, begins⟩ := h.head
  simpa [Seam] using fun _ => begins

/-- A phrase goes on with anything that keeps the seams, since it does not end in a separator. -/
theorem extend (h : Seamed ts) (seams : us.IsChain Seam)
    (last : ∃ vs t, us = vs ++ [t] ∧ separates t = false) : Seamed (ts ++ us) where
  head := by
    obtain ⟨t, vs, rfl, begins⟩ := h.head
    exact ⟨t, vs ++ us, rfl, begins⟩
  last := by
    obtain ⟨vs, t, rfl, silent⟩ := last
    exact ⟨ts ++ vs, t, by simp, silent⟩
  seams := by
    refine h.seams.append seams fun x hx y _ separator => ?_
    obtain ⟨vs, t, rfl, silent⟩ := h.last
    simp only [List.getLast?_concat, Option.mem_some_iff] at hx
    simp [← hx, silent] at separator

theorem single (begins : begins t = true) (silent : separates t = false) : Seamed [t] :=
  ⟨⟨t, [], rfl, begins⟩, ⟨[], t, rfl, silent⟩, .singleton t⟩

theorem append (h : Seamed ts) (h' : Seamed us) : Seamed (ts ++ us) :=
  h.extend h'.seams h'.last

/-- Two phrases with one token between them. -/
theorem join (h : Seamed ts) (t : Token) (h' : Seamed us) : Seamed (ts ++ t :: us) := by
  refine h.extend (List.isChain_cons.mpr ⟨h'.seam_head t, h'.seams⟩) ?_
  obtain ⟨vs, u, rfl, silent⟩ := h'.last
  exact ⟨t :: vs, u, rfl, silent⟩

/-- A phrase before a token that is no separator. -/
theorem concat (h : Seamed ts) (silent : separates t = false) : Seamed (ts ++ [t]) :=
  h.extend (.singleton t) ⟨[], t, rfl, silent⟩

/-- A phrase before another one, which may be missing, and a token that is no separator. -/
theorem enclose (h : Seamed ts) (h' : us = [] ∨ Seamed us) (silent : separates t = false) :
    Seamed (ts ++ us ++ [t]) := by
  rcases h' with rfl | h'
  · simpa using h.concat silent
  · exact (h.append h').concat silent

end Seamed

mutual

theorem Ternary.seamed : ∀ {ts e}, Ternary ts e → Seamed ts
  | _, _, .operand h => h.seamed
  | _, _, .choice hc ht hu => (hc.seamed.join _ ht.seamed).join _ hu.seamed

theorem Binary.seamed : ∀ {level ts e}, Binary level ts e → Seamed ts
  | _, _, _, .operand _ h => h.seamed
  | _, _, _, .tightest h => h.seamed
  | _, _, _, .operator op hl hr => hl.seamed.join (.mark op.mark) hr.seamed

theorem Unary.seamed : ∀ {ts e}, Unary ts e → Seamed ts
  | _, _, .not h | _, _, .negate h => (Seamed.single rfl rfl).append h.seamed
  | _, _, .unsigned h => h.seamed

theorem Suffixed.seamed : ∀ {ts e}, Suffixed ts e → Seamed ts
  | _, _, .primary h => h.seamed
  | _, _, .member name h => h.seamed.join (.mark .dot) (.single rfl rfl)
  | _, _, .call name h hs => by
    have called := h.seamed.join (.mark .dot) (.single (t := .ident name) rfl rfl)
    have opened := called.concat (t := .mark .openParen) rfl
    simpa using opened.enclose hs.seamed (t := .mark .closeParen) rfl
  | _, _, .index h hk => (h.seamed.join _ hk.seamed).concat rfl

theorem Primary.seamed : ∀ {ts e}, Primary ts e → Seamed ts
  | _, _, .int _ | _, _, .str _ | _, _, .constant _ | _, _, .ident _ => .single rfl rfl
  | _, _, .call _ hs => ((Seamed.single rfl rfl).concat rfl).enclose hs.seamed rfl
  | _, _, .list hs => (Seamed.single rfl rfl).enclose hs.seamed rfl
  | _, _, .paren h => (Seamed.single rfl rfl).enclose (.inr h.seamed) rfl

theorem Arguments.seamed : ∀ {ts es}, Arguments ts es → ts = [] ∨ Seamed ts
  | _, _, .none => .inl rfl
  | _, _, .some hs => .inr hs.seamed

theorem Items.seamed : ∀ {ts es}, Items ts es → Seamed ts
  | _, _, .last h => h.seamed
  | _, _, .more h hs => h.seamed.join _ hs.seamed

end

theorem Statement.seamed {ts : List Token} {e : Expr} : Statement ts e → Seamed ts
  | .plain h _ => h.seamed
  | .returned h => (Seamed.single rfl rfl).append h.seamed

theorem Statements.seamed : ∀ {ts es}, Statements ts es → Seamed ts
  | _, _, .last h => h.seamed
  | _, _, .more h hs => h.seamed.join _ hs.seamed

theorem Body.seamed {ts : List Token} {e : Expr} : Body ts e → Seamed ts
  | .single h => h.seamed
  | .sequence h _ => h.seamed

/-- A program begins like an expression, and an expression begins after each of its separators but a
semicolon at the end. -/
theorem Program.seams {ts : List Token} {e : Expr} (h : Program ts e) :
    (∃ t us, ts = t :: us ∧ begins t = true) ∧ ts.IsChain Seam ∧
      ts.getLast? ≠ some (.mark .comma) := by
  cases h with
  | bare h =>
    refine ⟨h.seamed.head, h.seamed.seams, ?_⟩
    obtain ⟨us, t, rfl, silent⟩ := h.seamed.last
    intro ended
    obtain rfl : t = .mark .comma := by simpa using ended
    cases silent
  | @terminated ts e h =>
    obtain ⟨t, us, rfl, starts⟩ := h.seamed.head
    have ended : Seamed (t :: us) := h.seamed
    refine ⟨⟨t, _, rfl, starts⟩, ?_, by rw [List.getLast?_concat]; simp⟩
    -- what comes before the last semicolon does not end in a separator itself
    refine ended.seams.append (.singleton _) fun x hx y _ separator => ?_
    obtain ⟨vs, u, eq, silent⟩ := ended.last
    rw [eq, List.getLast?_concat, Option.mem_some_iff] at hx
    simp [← hx, silent] at separator

end Grammar

end DirectiveRunner
