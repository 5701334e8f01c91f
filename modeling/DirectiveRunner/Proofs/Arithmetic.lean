import DirectiveRunner.Proofs.Execution
import Mathlib.Algebra.Group.Int.Defs
/-!
# Integer arithmetic

What an expression of integers stands for is said over the unbounded integers (`Expr.Denotes`), with a
division that truncates towards zero (`TruncatedDivision`). `Expr.Exact` adds that 64 bits are enough
on the way to it, which is a statement about all parts of the expression.

`Expr.eval_integers` says that evaluation, which only ever has 64 bits, yields exactly these values and
otherwise fails with a type error. The induction goes through the parts of the expression: `Exact` is
handed on from the operands to the whole (`exact_negate_iff`, `exact_binary_iff`) under the same
conditions under which an operator has a result (`integerOp_settles`).
-/

namespace DirectiveRunner.Expr

/-! ## Values over the unbounded integers -/

/-- Division that truncates towards zero: what is left of `a` when `q` times `b` is taken away is
smaller than `b` and has the sign of `a`. -/
structure TruncatedDivision (a b q r : Int) : Prop where
  /-- Quotient and remainder make up the dividend. -/
  sum : r + b * q = a
  /-- The remainder is smaller than the divisor. -/
  small : r.natAbs < b.natAbs
  /-- The remainder of what is not negative is not negative. -/
  nonneg : 0 ≤ a → 0 ≤ r
  /-- The remainder of what is negative is not positive. -/
  nonpos : a < 0 → r ≤ 0

theorem TruncatedDivision.ne_zero {a b q r : Int} (h : TruncatedDivision a b q r) : b ≠ 0 := by
  rintro rfl
  exact Nat.not_lt_zero _ h.small

theorem truncatedDivision_iff {a b q r : Int} :
    TruncatedDivision a b q r ↔ b ≠ 0 ∧ a.tdiv b = q ∧ a.tmod b = r := by
  have unique (h : b ≠ 0) : a.tdiv b = q ∧ a.tmod b = r ↔ TruncatedDivision a b q r := by
    rcases Int.lt_or_le a 0 with negative | nonneg
    · rw [Int.tdiv_tmod_unique' (Int.le_of_lt negative) h]
      exact ⟨fun ⟨sum, small, nonpos⟩ => ⟨sum, by omega, by omega, fun _ => nonpos⟩,
        fun d => ⟨d.sum, by have := d.small; have := d.nonpos negative; omega, d.nonpos negative⟩⟩
    · rw [Int.tdiv_tmod_unique nonneg h]
      exact ⟨fun ⟨sum, least, small⟩ => ⟨sum, by omega, fun _ => least, by omega⟩,
        fun d => ⟨d.sum, d.nonneg nonneg, by have := d.small; have := d.nonneg nonneg; omega⟩⟩
  constructor
  · intro h
    exact ⟨h.ne_zero, (unique h.ne_zero).mpr h⟩
  · rintro ⟨h, same⟩
    exact (unique h).mp same

/-- Whether an operator computes an integer from two integers. -/
def BinaryOp.isArithmetic : BinaryOp → Bool
  | .add | .sub | .mul | .div | .rem => true
  | _ => false

/-- `op` makes `c` of the unbounded integers `a` and `b`. -/
inductive BinaryOp.Makes : BinaryOp → Int → Int → Int → Prop
  | add (a b : Int) : Makes .add a b (a + b)
  | sub (a b : Int) : Makes .sub a b (a - b)
  | mul (a b : Int) : Makes .mul a b (a * b)
  | div {a b q r : Int} : TruncatedDivision a b q r → Makes .div a b q
  | rem {a b q r : Int} : TruncatedDivision a b q r → Makes .rem a b r

theorem BinaryOp.Makes.ne_zero {op : BinaryOp} {a b c : Int} (h : op.Makes a b c)
    (divides : op = .div ∨ op = .rem) : b ≠ 0 := by
  rcases divides with rfl | rfl
  · cases h with
    | div division => exact division.ne_zero
  · cases h with
    | rem division => exact division.ne_zero

theorem BinaryOp.Makes.unique {op : BinaryOp} {a b c c' : Int} (h : op.Makes a b c)
    (h' : op.Makes a b c') : c = c' := by
  cases h with
  | add | sub | mul => cases h'; rfl
  | div h | rem h =>
    cases h' with
    | _ h' =>
      obtain ⟨-, quotient, remainder⟩ := truncatedDivision_iff.mp h
      obtain ⟨-, quotient', remainder'⟩ := truncatedDivision_iff.mp h'
      simp_all

variable {scope : Bindings}

variable (scope) in
/-- An expression of integers: it is built from integers written out and names bound to integers, with
the negative sign and the operators of arithmetic. -/
inductive Arithmetic : Expr → Prop
  | literal (n : Int64) : Arithmetic (.literal (.int n))
  | ident {name : String} {n : Int64} : Dict.lookup name scope = some (.int n) →
    Arithmetic (.ident name)
  | negate {e : Expr} : Arithmetic e → Arithmetic (.negate e)
  | binary {op : BinaryOp} {l r : Expr} : op.isArithmetic = true → Arithmetic l → Arithmetic r →
    Arithmetic (.binary op l r)

variable (scope) in
/-- An expression of integers has a value over the unbounded integers. -/
inductive Denotes : Expr → Int → Prop
  | literal (n : Int64) : Denotes (.literal (.int n)) n.toInt
  | ident {name : String} {n : Int64} : Dict.lookup name scope = some (.int n) →
    Denotes (.ident name) n.toInt
  | negate {e : Expr} {a : Int} : Denotes e a → Denotes (.negate e) (-a)
  | binary {op : BinaryOp} {l r : Expr} {a b c : Int} : Denotes l a → Denotes r b →
    op.Makes a b c → Denotes (.binary op l r) c

theorem Denotes.unique {e : Expr} {a a' : Int} (h : Denotes scope e a) (h' : Denotes scope e a') :
    a = a' := by
  induction h generalizing a' with
  | literal => cases h'; rfl
  | ident bound =>
    cases h' with
    | ident bound' =>
      rw [bound] at bound'
      cases bound'
      rfl
  | negate _ ih =>
    cases h' with
    | negate h' => rw [ih h']
  | binary _ _ made ihl ihr =>
    cases h' with
    | binary hl hr made' =>
      rw [ihl hl, ihr hr] at made
      exact made.unique made'

/-! ## Values that 64 bits are enough for -/

/-- Whether an integer has 64 bits, one of them for its sign. -/
def Fits (i : Int) : Prop := -2 ^ 63 ≤ i ∧ i < 2 ^ 63

theorem fits_toInt (n : Int64) : Fits n.toInt := ⟨n.le_toInt, n.toInt_lt⟩

/-- `p` is a part of an expression of integers, or the expression itself. -/
inductive Part (p : Expr) : Expr → Prop
  | whole : Part p p
  | operand {e : Expr} : Part p e → Part p (.negate e)
  | left {op : BinaryOp} {l r : Expr} : Part p l → Part p (.binary op l r)
  | right {op : BinaryOp} {l r : Expr} : Part p r → Part p (.binary op l r)

variable (scope) in
/-- `n` is the value of an expression over the unbounded integers, and 64 bits are enough to compute
it. -/
structure Exact (e : Expr) (n : Int) : Prop where
  denotes : Denotes scope e n
  /-- The value of each part fits in 64 bits. -/
  fits : ∀ p m, Part p e → Denotes scope p m → Fits m
  /-- Nothing is divided by zero. -/
  divisor : ∀ op l r, op = .div ∨ op = .rem → Part (.binary op l r) e → ¬Denotes scope r 0
  /-- The least integer of 64 bits is not divided by minus one for its remainder, which would be zero
  after a quotient that does not fit. -/
  remainder : ∀ l r, Part (.binary .rem l r) e →
    ¬(Denotes scope l (-2 ^ 63) ∧ Denotes scope r (-1))

theorem Exact.fits_self {e : Expr} {n : Int} (h : Exact scope e n) : Fits n :=
  h.fits e n .whole h.denotes

/-- What is enough for an expression is enough for its parts. -/
theorem Exact.of_part {e e' : Expr} {n m : Int} (h : Exact scope e n)
    (within : ∀ p, Part p e' → Part p e) (value : Denotes scope e' m) : Exact scope e' m where
  denotes := value
  fits p m part := h.fits p m (within p part)
  divisor op l r divides part := h.divisor op l r divides (within _ part)
  remainder l r part := h.remainder l r (within _ part)

/-- What has no parts is exact if it fits. -/
theorem exact_of_leaf {e : Expr} {n : Int64} (h : Denotes scope e n.toInt)
    (leaf : ∀ p, Part p e → p = e) (simple : ∀ op l r, e ≠ .binary op l r) :
    Exact scope e n.toInt where
  denotes := h
  fits p m part value := by
    rw [leaf p part] at value
    exact value.unique h ▸ fits_toInt n
  divisor op l r _ part := absurd (leaf _ part).symm (simple op l r)
  remainder l r part := absurd (leaf _ part).symm (simple .rem l r)

theorem exact_negate_iff {e : Expr} {m : Int} :
    Exact scope (.negate e) m ↔ ∃ n, Exact scope e n ∧ m = -n ∧ Fits m := by
  constructor
  · intro h
    cases h.denotes with
    | negate value => exact ⟨_, h.of_part (fun _ => .operand) value, rfl, h.fits_self⟩
  · rintro ⟨n, h, rfl, fits⟩
    refine ⟨.negate h.denotes, ?_, ?_, ?_⟩
    · intro p m part value
      cases part with
      | whole => exact value.unique (.negate h.denotes) ▸ fits
      | operand part => exact h.fits p m part value
    · rintro op l r divides (_ | part)
      exact h.divisor op l r divides part
    · rintro l r (_ | part)
      exact h.remainder l r part

/-- The one division whose remainder is refused although it has one. -/
def BinaryOp.Refuses (op : BinaryOp) (a b : Int) : Prop := op = .rem ∧ a = -2 ^ 63 ∧ b = -1

theorem exact_binary_iff {op : BinaryOp} {l r : Expr} {c : Int} :
    Exact scope (.binary op l r) c ↔ ∃ a b, Exact scope l a ∧ Exact scope r b ∧
      op.Makes a b c ∧ Fits c ∧ ¬op.Refuses a b := by
  constructor
  · intro h
    cases h.denotes with
    | @binary _ _ _ a b _ left right made =>
      refine ⟨a, b, h.of_part (fun _ => .left) left, h.of_part (fun _ => .right) right, made,
        h.fits_self, ?_⟩
      rintro ⟨rfl, rfl, rfl⟩
      exact h.remainder l r .whole ⟨left, right⟩
  · rintro ⟨a, b, left, right, made, fits, allowed⟩
    have value := Denotes.binary left.denotes right.denotes made
    refine ⟨value, ?_, ?_, ?_⟩
    · -- a part of the whole is the whole or a part of one operand, which is exact itself
      intro p m part value'
      cases part with
      | whole => exact value'.unique value ▸ fits
      | left part => exact left.fits p m part value'
      | right part => exact right.fits p m part value'
    · intro op' l' r' divides part zero
      cases part with
      | whole => exact made.ne_zero divides (right.denotes.unique zero)
      | left part => exact left.divisor op' l' r' divides part zero
      | right part => exact right.divisor op' l' r' divides part zero
    · intro l' r' part both
      cases part with
      | whole => exact allowed ⟨rfl, left.denotes.unique both.1, right.denotes.unique both.2⟩
      | left part => exact left.remainder l' r' part both
      | right part => exact right.remainder l' r' part both

/-! ## Operators on 64 bits -/

/-- A result is the integer that `P` holds of, or a type error if there is none. -/
def Settles (x : Except EvalError Value) (P : Int → Prop) : Prop :=
  (∃ n : Int64, x = .ok (.int n) ∧ P n.toInt) ∨ ∃ m, x = .error (.wrongType m) ∧ ∀ n, ¬P n

theorem Settles.congr {x : Except EvalError Value} {P Q : Int → Prop} (h : Settles x P)
    (same : ∀ n, P n ↔ Q n) : Settles x Q := by
  rcases h with ⟨n, ok, holds⟩ | ⟨m, failed, none⟩
  · exact .inl ⟨n, ok, (same _).mp holds⟩
  · exact .inr ⟨m, failed, fun n holds => none n ((same n).mpr holds)⟩

/-- An integer that fits is made a value, and any other is refused. -/
theorem fitting_settles (i : Int) (overflow : String) :
    Settles (fitting i overflow) fun n => n = i ∧ Fits n := by
  by_cases fits : Fits i
  · have same := Int64.toInt_ofInt_of_le fits.1 fits.2
    exact .inl ⟨Int64.ofInt i, if_pos fits, same, fits_toInt _⟩
  · refine .inr ⟨overflow, if_neg fits, ?_⟩
    rintro n ⟨rfl, fits'⟩
    exact fits fits'

/-- The result of an operator of arithmetic is what it makes of the unbounded integers. -/
theorem integerOp_settles {op : BinaryOp} (arithmetic : op.isArithmetic = true) (a b : Int64) :
    Settles (integerOp op a b) fun c =>
      op.Makes a.toInt b.toInt c ∧ Fits c ∧ ¬op.Refuses a.toInt b.toInt := by
  -- the result is fitted except for a division by zero and the remainder that is refused
  have fitted {i : Int} (result : integerOp op a b = fitting i overflowText)
      (made : op.Makes a.toInt b.toInt i) (allowed : ¬op.Refuses a.toInt b.toInt) :
      Settles (integerOp op a b) fun c =>
        op.Makes a.toInt b.toInt c ∧ Fits c ∧ ¬op.Refuses a.toInt b.toInt := by
    rw [result]
    refine (fitting_settles i overflowText).congr fun c => ?_
    constructor
    · rintro ⟨rfl, fits⟩
      exact ⟨made, fits, allowed⟩
    · rintro ⟨made', fits, -⟩
      exact ⟨made'.unique made, fits⟩
  have zero_iff : b = 0 ↔ b.toInt = 0 := by rw [← Int64.toInt_inj]; rfl
  have minus_iff : b = -1 ↔ b.toInt = -1 := by rw [← Int64.toInt_inj]; rfl
  have division (zero : b ≠ 0) :
      TruncatedDivision a.toInt b.toInt (a.toInt.tdiv b.toInt) (a.toInt.tmod b.toInt) :=
    truncatedDivision_iff.mpr ⟨mt zero_iff.mpr zero, rfl, rfl⟩
  cases op with
  | add => exact fitted rfl (.add _ _) nofun
  | sub => exact fitted rfl (.sub _ _) nofun
  | mul => exact fitted rfl (.mul _ _) nofun
  | div =>
    by_cases zero : b = 0
    · refine .inr ⟨_, if_pos zero, ?_⟩
      rintro c ⟨made, -, -⟩
      exact made.ne_zero (by decide) (zero_iff.mp zero)
    · exact fitted (if_neg zero) (.div (division zero)) nofun
  | rem =>
    by_cases zero : b = 0
    · refine .inr ⟨_, if_pos zero, ?_⟩
      rintro c ⟨made, -, -⟩
      exact made.ne_zero (by decide) (zero_iff.mp zero)
    · by_cases least : a.toInt = -Int.pow 2 63 ∧ b = -1
      · refine .inr ⟨_, (if_neg zero).trans (if_pos least), ?_⟩
        rintro c ⟨-, -, allowed⟩
        exact allowed ⟨rfl, least.1, minus_iff.mp least.2⟩
      · refine fitted ((if_neg zero).trans (if_neg least)) (.rem (division zero)) ?_
        rintro ⟨-, isLeast, minus⟩
        exact least ⟨isLeast, minus_iff.mpr minus⟩
  | _ => cases arithmetic

/-! ## Evaluation -/

/-- The operators of arithmetic need both operands. -/
theorem eval_binary {op : BinaryOp} (arithmetic : op.isArithmetic = true) (l r : Expr) :
    eval scope (.binary op l r) = (do
      let a ← eval scope l
      let b ← eval scope r
      .ofExcept (applyBinary op a b)) := by
  cases op with
  | or | and => cases arithmetic
  | _ => rfl

theorem applyBinary_int {op : BinaryOp} (arithmetic : op.isArithmetic = true) (a b : Int64) :
    applyBinary op (.int a) (.int b) = integerOp op a b := by
  cases op with
  | add | sub | mul | div | rem => rfl
  | _ => cases arithmetic

/-- Evaluating an expression of integers settles it without a trace in the world. -/
theorem Arithmetic.eval_settles {e : Expr} (h : Arithmetic scope e) (s : Setting) (w : World) :
    ∃ x, (e.eval scope).run s w = (x, w) ∧ Settles x (Exact scope e) := by
  induction h with
  | literal n => exact ⟨_, rfl, .inl ⟨n, rfl, exact_of_leaf (.literal n) (by rintro _ ⟨⟩; rfl) nofun⟩⟩
  | @ident name n bound =>
    refine ⟨.ok (.int n), ?_, .inl ⟨n, rfl, exact_of_leaf (.ident bound) (by rintro _ ⟨⟩; rfl) nofun⟩⟩
    rw [eval, bound]
    rfl
  | @negate e _ ih =>
    obtain ⟨x, ran, ⟨n, rfl, known⟩ | ⟨m, rfl, none⟩⟩ := ih
    · refine ⟨negated (.int n), ?_, (fitting_settles _ _).congr fun m => ?_⟩
      · rw [eval, Action.run_bind, ran]
        rfl
      · rw [exact_negate_iff]
        constructor
        · rintro ⟨rfl, fits⟩
          exact ⟨_, known, rfl, fits⟩
        · rintro ⟨n', known', rfl, fits⟩
          exact ⟨by rw [known'.denotes.unique known.denotes], fits⟩
    · refine ⟨.error (.wrongType m), ?_, .inr ⟨m, rfl, fun n known => ?_⟩⟩
      · rw [eval, Action.run_bind, ran]
      · obtain ⟨n', known', -⟩ := exact_negate_iff.mp known
        exact none n' known'
  | @binary op l r arithmetic _ _ ihl ihr =>
    rw [eval_binary arithmetic, Action.run_bind]
    -- the first operand without a value decides, and otherwise the operation does
    obtain ⟨x, ran, ⟨a, rfl, left⟩ | ⟨m, rfl, none⟩⟩ := ihl
    · obtain ⟨y, ran', ⟨b, rfl, right⟩ | ⟨m, rfl, none⟩⟩ := ihr
      · refine ⟨integerOp op a b, ?_, (integerOp_settles arithmetic a b).congr fun c => ?_⟩
        · rw [ran]
          simp only
          rw [Action.run_bind, ran', ← applyBinary_int arithmetic]
          rfl
        · rw [exact_binary_iff]
          constructor
          · rintro ⟨made, fits, allowed⟩
            exact ⟨_, _, left, right, made, fits, allowed⟩
          · rintro ⟨a', b', left', right', made, fits, allowed⟩
            obtain rfl := left'.denotes.unique left.denotes
            obtain rfl := right'.denotes.unique right.denotes
            exact ⟨made, fits, allowed⟩
      · refine ⟨.error (.wrongType m), ?_, .inr ⟨m, rfl, fun c known => ?_⟩⟩
        · rw [ran]
          simp only
          rw [Action.run_bind, ran']
        · obtain ⟨_, b, -, right, -⟩ := exact_binary_iff.mp known
          exact none b right
    · refine ⟨.error (.wrongType m), ?_, .inr ⟨m, rfl, fun c known => ?_⟩⟩
      · rw [ran]
      · obtain ⟨a, _, left, -⟩ := exact_binary_iff.mp known
        exact none a left

/-- **Integer arithmetic is exact.** An expression of integers, of any depth, evaluates to an integer
exactly if that is its value over the unbounded integers and 64 bits are enough to compute it: the value
of each part fits, nothing is divided by zero, and the least integer is not divided by minus one for its
remainder. If there is no such value, the evaluation fails with a type error. The world is left as it
was. -/
theorem eval_integers {e : Expr} (h : Arithmetic scope e) (s : Setting) (w : World) :
    (∀ n : Int64, (e.eval scope).run s w = (.ok (.int n), w) ↔ Exact scope e n.toInt) ∧
      ((¬∃ n, Exact scope e n) →
        ∃ message, (e.eval scope).run s w = (.error (.wrongType message), w)) := by
  obtain ⟨x, ran, ⟨n, rfl, known⟩ | ⟨m, rfl, none⟩⟩ := h.eval_settles s w
  · refine ⟨fun n' => ?_, fun none => absurd ⟨_, known⟩ none⟩
    rw [ran]
    constructor
    · rintro ⟨⟩
      exact known
    · intro known'
      rw [Int64.toInt_inj.mp (known'.denotes.unique known.denotes)]
  · refine ⟨fun n => ?_, fun _ => ⟨m, ran⟩⟩
    rw [ran]
    constructor
    · rintro ⟨⟩
    · intro known
      exact absurd known (none _)

/-- The least integer has no negative of 64 bits, but one more has. Its remainder by minus one is zero,
and is refused all the same. -/
theorem eval_integers_least :
    let scope : Bindings := [("least", .int Int64.minValue)]
    let next : Expr := .negate (.binary .add (.ident "least") (.literal (.int 1)))
    let rest : Expr := .binary .rem (.ident "least") (.negate (.literal (.int 1)))
    let s := Setting.ofDocument "doc.tex" true
    Arithmetic scope next ∧ Exact scope next (2 ^ 63 - 1) ∧ Arithmetic scope rest ∧
      Denotes scope rest 0 ∧ ∃ m, (rest.eval scope).run s {} = (.error (.wrongType m), {}) := by
  intro scope next rest s
  have least : Arithmetic scope (.ident "least") := .ident (n := Int64.minValue) rfl
  have bound : Denotes scope (.ident "least") (-2 ^ 63) := .ident (n := Int64.minValue) rfl
  have minus : Denotes scope (.negate (.literal (.int 1))) (-1) := .negate (.literal 1)
  have division : TruncatedDivision (-2 ^ 63) (-1) (2 ^ 63) 0 := by constructor <;> decide
  have value : Denotes scope rest 0 := .binary bound minus (.rem division)
  have next_arithmetic : Arithmetic scope next := .negate (.binary rfl least (.literal 1))
  have rest_arithmetic : Arithmetic scope rest := .binary rfl least (.negate (.literal 1))
  refine ⟨next_arithmetic, ?_, rest_arithmetic, value, ?_⟩
  · exact ((eval_integers next_arithmetic s {}).1 Int64.maxValue).mp rfl
  · refine (eval_integers rest_arithmetic s {}).2 ?_
    rintro ⟨n, known⟩
    exact known.remainder _ _ .whole ⟨bound, minus⟩

end DirectiveRunner.Expr
