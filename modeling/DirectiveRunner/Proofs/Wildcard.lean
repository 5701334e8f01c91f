import DirectiveRunner.Proofs.Matching
import DirectiveRunner.Regex.Wildcard
import Mathlib.Data.List.Forall2
/-!
# The names a wildcard covers

A wildcard covers the names that come about when each of its characters is replaced by a run that it
stands for (`Covers`). It is not matched directly, but through a regular expression that is written
down and read again. So two things are to be shown: that the notation is read as the expression that
was meant, whatever characters the wildcard holds (`read?_source`), and that this expression matches
the names that are covered (`isMatch_whole_iff`).
-/

namespace DirectiveRunner.Wildcard

open Regex (Cursor Matches CharSet Flags Reading)

/-- The runs that a character of a wildcard stands for. -/
inductive StandsFor : Char → List Char → Prop
  | any {run} : '\n' ∉ run → StandsFor '*' run
  | one {c} : c ≠ '\n' → StandsFor '?' [c]
  | self {c} : c ≠ '*' → c ≠ '?' → StandsFor c [c]

/-- A name is a wildcard with each character replaced by a run that it stands for. -/
def Covers (pattern name : List Char) : Prop :=
  ∃ runs, List.Forall₂ StandsFor pattern runs ∧ runs.flatten = name

theorem covers_nil_iff {name : List Char} : Covers [] name ↔ name = [] := by
  simp [Covers, eq_comm]

theorem covers_cons_iff {c : Char} {pattern name : List Char} : Covers (c :: pattern) name ↔
    ∃ run rest, StandsFor c run ∧ Covers pattern rest ∧ name = run ++ rest := by
  constructor
  · rintro ⟨_, _ | ⟨first, later⟩, rfl⟩
    exact ⟨_, _, first, ⟨_, later, rfl⟩, rfl⟩
  · rintro ⟨run, _, first, ⟨runs, later, rfl⟩, rfl⟩
    exact ⟨run :: runs, .cons first later, rfl⟩

/-! ## The expression -/

def inLine : Regex := .one (.allBut ['\n'])

/-- The expression of one character of a wildcard. -/
def part (c : Char) : Regex :=
  if c = '*' then .star true inLine else if c = '?' then inLine else .one (.single c)

/-- The expression of the rest of a wildcard, up to the end of the name. -/
def body : List Char → Regex
  | [] => .anchor .textEnd
  | c :: pattern => .cat (part c) (body pattern)

/-- The expression of a wildcard. -/
def whole (pattern : List Char) : Regex := .cat (.anchor .textStart) (body pattern)

variable {k : Cursor} {c : Char} {rest : List Char} {s : CharSet}

theorem has_allBut_feed : (CharSet.allBut ['\n']).has c = true ↔ c ≠ '\n' := by
  simp [CharSet.allBut, CharSet.has, CharSet.has_single]

theorem exists_matches_one_iff : (∃ k', Matches (.one s) k k' ∧ k'.after = rest) ↔
    ∃ c, s.has c = true ∧ k.after = c :: rest := by
  constructor
  · rintro ⟨k', _ | ⟨next, has⟩, rfl⟩
    exact ⟨_, has, (Cursor.next?_eq_some_iff.mp next).1⟩
  · rintro ⟨c, has, after⟩
    have rest : (k.advance 1).after = rest := by simp [Cursor.advance, after]
    exact ⟨k.advance 1, .one (Cursor.next?_eq_some_iff.mpr ⟨rest ▸ after, rfl⟩) has, rest⟩

theorem exists_matches_star_iff : (∃ k', Matches (.star true (.one s)) k k' ∧ k'.after = rest) ↔
    ∃ run, (∀ c ∈ run, s.has c = true) ∧ k.after = run ++ rest := by
  simp only [Regex.matches_star_iff]
  constructor
  · rintro ⟨k', rounds, rfl⟩
    induction rounds using Relation.ReflTransGen.head_induction_on with
    | refl => exact ⟨[], by simp⟩
    | head round _ ih =>
      obtain ⟨run, all, after⟩ := ih
      obtain ⟨c, has, first⟩ := exists_matches_one_iff.mp ⟨_, round, rfl⟩
      exact ⟨c :: run, List.forall_mem_cons.mpr ⟨has, all⟩, by simp [first, after]⟩
  · rintro ⟨run, all, after⟩
    induction run generalizing k with
    | nil => exact ⟨k, .refl, after⟩
    | cons c run ih =>
      obtain ⟨has, all⟩ := List.forall_mem_cons.mp all
      obtain ⟨k₁, round, after₁⟩ := exists_matches_one_iff.mpr ⟨c, has, after⟩
      obtain ⟨k', rounds, after'⟩ := ih all after₁
      exact ⟨k', .head round rounds, after'⟩

/-- The expression of a character matches the runs that the character stands for. -/
theorem exists_matches_part_iff : (∃ k', Matches (part c) k k' ∧ k'.after = rest) ↔
    ∃ run, StandsFor c run ∧ k.after = run ++ rest := by
  unfold part
  -- the three cases are those of `StandsFor`: a star, a question mark and any other character
  split
  · next star =>
    subst star
    rw [inLine, exists_matches_star_iff]
    refine exists_congr fun run => and_congr_left fun _ => ?_
    constructor
    · intro all
      exact .any fun feed => has_allBut_feed.mp (all _ feed) rfl
    · rintro (oneLine | _ | ⟨notStar, -⟩)
      · exact fun d mem => has_allBut_feed.mpr fun feed => oneLine (feed ▸ mem)
      · exact absurd rfl notStar
  · next notStar =>
    split
    · next mark =>
      subst mark
      rw [inLine, exists_matches_one_iff]
      constructor
      · rintro ⟨d, other, after⟩
        exact ⟨[d], .one (has_allBut_feed.mp other), after⟩
      · rintro ⟨_, _ | ⟨other⟩ | ⟨-, notMark⟩, after⟩
        · exact ⟨_, has_allBut_feed.mpr other, after⟩
        · exact absurd rfl notMark
    · next notMark =>
      rw [exists_matches_one_iff]
      constructor
      · rintro ⟨d, same, after⟩
        rw [CharSet.has_single, decide_eq_true_eq] at same
        exact ⟨[c], .self notStar notMark, same ▸ after⟩
      · rintro ⟨_, _ | _ | _, after⟩
        · exact absurd rfl notStar
        · exact absurd rfl notMark
        · exact ⟨c, by simp [CharSet.has_single], after⟩

theorem exists_matches_body_iff {pattern : List Char} :
    (∃ k', Matches (body pattern) k k') ↔ Covers pattern k.after := by
  induction pattern generalizing k with
  | nil =>
    rw [covers_nil_iff, body]
    constructor
    · rintro ⟨k', _ | _ | closed⟩
      simpa [Regex.Anchor.holds] using closed
    · intro closed
      exact ⟨k, .anchor (by simp [Regex.Anchor.holds, closed])⟩
  | cons c pattern ih =>
    rw [covers_cons_iff, body]
    constructor
    · rintro ⟨k', _ | _ | _ | ⟨first, later⟩⟩
      obtain ⟨run, stands, after⟩ := exists_matches_part_iff.mp ⟨_, first, rfl⟩
      exact ⟨run, _, stands, ih.mp ⟨k', later⟩, after⟩
    · rintro ⟨run, rest, stands, covers, after⟩
      obtain ⟨k₁, first, rfl⟩ := exists_matches_part_iff.mpr ⟨run, stands, after⟩
      obtain ⟨k', later⟩ := ih.mpr covers
      exact ⟨k', .cat first later⟩

/-- The expression of a wildcard matches the names that it covers. -/
theorem isMatch_whole_iff {pattern name : List Char} :
    (whole pattern).isMatch name = true ↔ Covers pattern name := by
  rw [Regex.isMatch_iff, whole]
  constructor
  · rintro ⟨k, k', ⟨n, most, rfl⟩, _ | _ | _ | ⟨_ | _ | first, later⟩⟩
    -- only at the start of the name there is no character before
    cases n with
    | zero => exact exists_matches_body_iff.mp ⟨k', later⟩
    | succ n =>
      have inside : n < name.length := most
      simp [Regex.Anchor.holds, Cursor.advance, Cursor.start, inside] at first
  · intro covers
    obtain ⟨k', later⟩ := exists_matches_body_iff (k := .start name).mpr covers
    exact ⟨.start name, k', .refl _, .cat (.anchor rfl) later⟩

/-! ## Its notation -/

/-- The notation goes on with something else than a mark of repetition. -/
def Unmarked (cs : List Char) : Prop := ∀ c ∈ cs.head?, c ∉ ['*', '+', '?', '\x7b']

variable {n : Nat} {r r' : Regex} {cs : List Char} {st : Reading}

theorem readRepeats?_of_unmarked (unmarked : Unmarked cs) (n : Nat) (r : Regex) :
    Regex.readRepeats? (n + 1) r { rest := cs } = some (r, { rest := cs }) := by
  cases cs with
  | nil => rfl
  | cons c cs =>
    have other := unmarked c rfl
    simp only [Regex.readRepeats?, Reading.skip, Bool.false_eq_true, if_false]
    split <;> simp_all

theorem readRest?_of_unmarked (unmarked : Unmarked cs)
    (later : Regex.readSequence? n { rest := cs } = some (r', st)) :
    Regex.readRest? (n + 1) r { rest := cs } = some (Regex.joined r r', st) := by
  simp [Regex.readRest?, readRepeats?_of_unmarked unmarked, later]

theorem readRest?_star (unmarked : Unmarked cs)
    (later : Regex.readSequence? n { rest := cs } = some (r', st)) :
    Regex.readRest? (n + 1) r { rest := '*' :: cs } = some (Regex.joined (.star true r) r', st) := by
  have greedy : Regex.readGreed { rest := cs } = (true, { rest := cs }) := by
    unfold Regex.readGreed
    split
    · next h => exact absurd (unmarked '?' (by rw [show cs = _ from h]; rfl)) (by simp)
    · rfl
  simp [Regex.readRest?, Regex.readRepeats?, Reading.skip, Reading.tail, greedy,
    readRepeats?_of_unmarked unmarked, later]

/-- A character without a meaning of its own is read as itself. -/
theorem readSequence?_literal (plain : c ∉ special) :
    Regex.readSequence? (n + 1) { rest := c :: cs } =
      Regex.readRest? n (.one (.single c)) { rest := cs } := by
  have head {d : Char} {tail : List Char} (h : c :: cs = d :: tail) : d ∉ special :=
    (List.cons.inj h).1 ▸ plain
  simp only [Regex.readSequence?, Reading.skip, Bool.false_eq_true, if_false]
  split
  case h_1 h => cases h
  case h_14 h =>
    cases h
    rfl
  all_goals next h => exact absurd (by decide) (head h)

theorem readEscape?_special (h : c ∈ special) :
    Regex.readEscape? {} (c :: cs) = some (.char c, cs) := by
  have letters : (special.all fun d => d ∉ "xuUpPDSWdsw".toList && Regex.isEscapable d) = true := by
    decide
  obtain ⟨other, escapable⟩ := Bool.and_eq_true_iff.mp (List.all_eq_true.mp letters c h)
  simp at other
  simp [Regex.readEscape?, Regex.shorthand?, escapable, other]

theorem readSequence?_escaped (h : c ∈ special) :
    Regex.readSequence? (n + 1) { rest := '\\' :: c :: cs } =
      Regex.readRest? n (.one (.single c)) { rest := cs } := by
  simp [Regex.readSequence?, Reading.skip, readEscape?_special h, Regex.literal, Reading.moveTo,
    Flags.fold]

/-- How the rest of a wildcard is written. -/
def tail (pattern : List Char) : List Char := pattern.flatMap translate ++ ['$']

theorem tail_cons (c : Char) (pattern : List Char) :
    tail (c :: pattern) = translate c ++ tail pattern := by
  simp [tail]

theorem unmarked_tail (pattern : List Char) : Unmarked (tail pattern) := by
  cases pattern with
  | nil =>
    rintro c ⟨⟩
    decide
  | cons c pattern =>
    intro d first
    rw [tail_cons, translate, escape] at first
    split at first
    · obtain rfl := Option.some.inj first
      decide
    · split at first
      · obtain rfl := Option.some.inj first
        decide
      · split at first
        · obtain rfl := Option.some.inj first
          decide
        · next plain =>
          obtain rfl := Option.some.inj first
          exact fun marked => plain ((by decide : ['*', '+', '?', '\x7b'] ⊆ special) marked)

theorem joined_body (r : Regex) (pattern : List Char) :
    Regex.joined r (body pattern) = .cat r (body pattern) := by
  cases pattern <;> rfl

/-- Each character of a wildcard is read as its expression, so the rest of it is, too. -/
theorem readSequence?_tail {pattern : List Char} (enough : 2 * pattern.length + 3 ≤ n) :
    Regex.readSequence? n { rest := tail pattern } = some (body pattern, { rest := [] }) := by
  induction pattern generalizing n with
  | nil =>
    obtain ⟨n, rfl⟩ := Nat.exists_eq_add_of_le' enough
    rfl
  | cons c pattern ih =>
    rw [List.length_cons] at enough
    obtain ⟨n, rfl⟩ : ∃ m, n = m + 2 := ⟨n - 2, by omega⟩
    have later := ih (n := n) (by omega)
    have unmarked := unmarked_tail pattern
    rw [tail_cons, translate, body, part, ← joined_body]
    split
    · exact readRest?_star unmarked later
    · split
      · exact readRest?_of_unmarked unmarked later
      · rw [escape]
        split
        · next h => exact (readSequence?_escaped h).trans (readRest?_of_unmarked unmarked later)
        · next plain =>
          exact (readSequence?_literal plain).trans (readRest?_of_unmarked unmarked later)

theorem length_tail (pattern : List Char) : pattern.length + 1 ≤ (tail pattern).length := by
  induction pattern with
  | nil => exact Nat.le_refl 1
  | cons c pattern ih =>
    have nonempty : 0 < (translate c).length := by
      unfold translate escape
      split_ifs <;> simp
    rw [tail_cons, List.length_append, List.length_cons]
    omega

/-- The notation of a wildcard is read as its expression. -/
theorem read?_source (pattern : List Char) : Regex.read? (source pattern) = some (whole pattern) := by
  have written : source pattern = '^' :: tail pattern := by simp [source, tail]
  obtain ⟨n, calls, enough⟩ : ∃ n, Regex.callsPerChar * ((source pattern).length + 2) = n + 3 ∧
      2 * pattern.length + 3 ≤ n := by
    have long := length_tail pattern
    refine ⟨Regex.callsPerChar * ((source pattern).length + 2) - 3, ?_, ?_⟩ <;>
      rw [written, List.length_cons, Regex.callsPerChar] <;> omega
  have read : Regex.readSequence? (n + 2) { rest := '^' :: tail pattern } =
      some (whole pattern, { rest := [] }) := by
    rw [whole, ← joined_body]
    exact readRest?_of_unmarked (unmarked_tail pattern) (readSequence?_tail enough)
  rw [Regex.read?, calls, written]
  simp [Regex.readAlternatives?, read]

/-- **Wildcards.** Every wildcard has an expression, which matches just the names that it covers. -/
theorem compile?_covers (pattern name : String) : ∃ regex, compile? pattern = some regex ∧
    (regex.isMatch name.toList = true ↔ Covers pattern.toList name.toList) := by
  have compiled : compile? pattern = some (whole pattern.toList) := by
    rw [compile?, Regex.Engine.compile?_standard, String.toList_ofList, read?_source]
  exact ⟨whole pattern.toList, compiled, isMatch_whole_iff⟩

end DirectiveRunner.Wildcard
