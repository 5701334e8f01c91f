import DirectiveRunner.Regex.Match
import Mathlib.Logic.Relation
/-!
# What an expression matches

`ends` lists places in the order of preference, leaves out those that were listed before, and goes on
from no place twice. None of this changes which places there are: they are those that the expression
`Matches`, a relation that says of each kind of expression what it stands for (`mem_ends_iff`).

The one thing to be shown is that a repetition loses nothing by going on from a place only once. A
place is known by how far it is from the start of the text, so a place that is seen again has been
`Explored` before, with all that follows from it.
-/

namespace DirectiveRunner.Regex

/-! ## Places of one text -/

namespace Cursor

/-- The place some characters further on. -/
def advance (k : Cursor) (n : Nat) : Cursor :=
  ⟨k.position + n, if n = 0 then k.before else k.after[n - 1]?, k.after.drop n⟩

/-- A place is the same as, or comes after, another one in the same text. -/
def Ahead (k k' : Cursor) : Prop := ∃ n, n ≤ k.after.length ∧ k' = k.advance n

variable {k k₁ k₂ k' : Cursor} {c : Char}

@[simp] theorem advance_zero (k : Cursor) : k.advance 0 = k := rfl

theorem advance_advance (k : Cursor) (m n : Nat) : (k.advance m).advance n = k.advance (m + n) := by
  cases n with
  | zero => rfl
  | succ n => simp [advance, Nat.add_assoc]

theorem next?_eq_some_iff :
    k.next? = some (c, k') ↔ k.after = c :: k'.after ∧ k' = k.advance 1 := by
  obtain ⟨position, before, after⟩ := k
  cases after with
  | nil => simp [next?]
  | cons d r =>
    simp only [next?, advance, Option.some.injEq, Prod.mk.injEq, List.cons.injEq]
    constructor
    · rintro ⟨rfl, rfl⟩
      simp
    · rintro ⟨⟨rfl, -⟩, rfl⟩
      simp

theorem Ahead.refl (k : Cursor) : Ahead k k := ⟨0, Nat.zero_le _, rfl⟩

theorem Ahead.trans (h : Ahead k k₁) (h' : Ahead k₁ k') : Ahead k k' := by
  obtain ⟨m, least, rfl⟩ := h
  obtain ⟨n, most, rfl⟩ := h'
  refine ⟨m + n, ?_, advance_advance k m n⟩
  rw [advance, List.length_drop] at most
  omega

theorem Ahead.next (h : k.next? = some (c, k')) : Ahead k k' := by
  obtain ⟨after, rfl⟩ := next?_eq_some_iff.mp h
  exact ⟨1, by simp [after], rfl⟩

theorem ahead_end_iff {position : Nat} {before : Option Char} :
    Ahead ⟨position, before, []⟩ k ↔ k = ⟨position, before, []⟩ := by
  refine ⟨fun ⟨n, most, h⟩ => ?_, fun h => h ▸ .refl _⟩
  obtain rfl := Nat.le_zero.mp most
  exact h

theorem ahead_cons_iff {position : Nat} {before : Option Char} {cs : List Char} :
    Ahead ⟨position, before, c :: cs⟩ k ↔
      k = ⟨position, before, c :: cs⟩ ∨ Ahead ⟨position + 1, some c, cs⟩ k := by
  constructor
  · rintro ⟨n, most, rfl⟩
    cases n with
    | zero => exact .inl rfl
    | succ n =>
      refine .inr ⟨n, Nat.le_of_succ_le_succ most, ?_⟩
      rw [Nat.add_comm n, ← advance_advance]
      rfl
  · rintro (rfl | h)
    · exact .refl _
    · exact (Ahead.next rfl).trans h

/-- The places of a text differ in how far they are from its start. -/
theorem Ahead.eq_of_position (h₁ : Ahead k k₁) (h₂ : Ahead k k₂)
    (same : k₁.position = k₂.position) : k₁ = k₂ := by
  obtain ⟨m, -, rfl⟩ := h₁
  obtain ⟨n, -, rfl⟩ := h₂
  obtain rfl : m = n := Nat.add_left_cancel same
  rfl

theorem Ahead.position_add (h : Ahead k k') :
    k'.position + k'.after.length = k.position + k.after.length := by
  obtain ⟨n, most, rfl⟩ := h
  simp only [advance, List.length_drop]
  omega

theorem Ahead.position_le (h : Ahead k k') : k.position ≤ k'.position := by
  obtain ⟨n, -, rfl⟩ := h
  exact Nat.le_add_right _ _

end Cursor

open Cursor (Ahead)

/-! ## Matches -/

/-- An expression matches the text from one place to another. -/
inductive Matches : Regex → Cursor → Cursor → Prop
  | empty {k} : Matches .empty k k
  | one {s c k k'} : k.next? = some (c, k') → s.has c = true → Matches (.one s) k k'
  | anchor {a k} : a.holds k = true → Matches (.anchor a) k k
  | cat {r s k k₁ k'} : Matches r k k₁ → Matches s k₁ k' → Matches (.cat r s) k k'
  | left {r s k k'} : Matches r k k' → Matches (.alt r s) k k'
  | right {r s k k'} : Matches s k k' → Matches (.alt r s) k k'
  | once {greedy r k k'} : Matches r k k' → Matches (.plus greedy r) k k'
  | again {greedy r k k₁ k'} : Matches r k k₁ → Matches (.plus greedy r) k₁ k' →
      Matches (.plus greedy r) k k'

variable {r s : Regex} {k k' : Cursor} {greedy : Bool}

theorem Matches.ahead (h : Matches r k k') : Ahead k k' := by
  induction h with
  | empty => exact .refl _
  | one next => exact .next next
  | anchor => exact .refl _
  | cat _ _ first second => exact first.trans second
  | left _ ih => exact ih
  | right _ ih => exact ih
  | once _ ih => exact ih
  | again _ _ first later => exact first.trans later

theorem matches_plus_iff :
    Matches (.plus greedy r) k k' ↔ Relation.TransGen (Matches r) k k' := by
  constructor
  · intro h
    generalize whole : Regex.plus greedy r = p at h
    induction h with
    | once round =>
      cases whole
      exact .single round
    | again round _ _ ih =>
      cases whole
      exact .head round (ih rfl)
    | _ => cases whole
  · intro h
    induction h using Relation.TransGen.head_induction_on with
    | single round => exact .once round
    | head round _ ih => exact .again round ih

theorem matches_opt_iff : Matches (opt greedy r) k k' ↔ Matches r k k' ∨ k' = k := by
  unfold opt
  cases greedy with
  | true =>
    constructor
    · rintro (_ | _ | _ | _ | h | ⟨⟨⟩⟩)
      · exact .inl h
      · exact .inr rfl
    · rintro (h | rfl)
      · exact .left h
      · exact .right .empty
  | false =>
    constructor
    · rintro (_ | _ | _ | _ | ⟨⟨⟩⟩ | h)
      · exact .inr rfl
      · exact .inl h
    · rintro (h | rfl)
      · exact .right h
      · exact .left .empty

theorem matches_star_iff :
    Matches (star greedy r) k k' ↔ Relation.ReflTransGen (Matches r) k k' := by
  rw [star, matches_opt_iff, matches_plus_iff, Relation.reflTransGen_iff_eq_or_transGen, or_comm]

/-! ## Repetitions -/

/-- One round of a repetition more, after which `st` holds the places found and those seen. -/
def goOn (step : Cursor → List Cursor) (greedy : Bool) (fuel : Nat) (k : Cursor)
    (st : List Cursor × List Nat) (k' : Cursor) : List Cursor × List Nat :=
  if k'.position = k.position then (st.1 ++ [k'], st.2)
  else
    let further := roundsFrom step greedy fuel st.2 k'
    (st.1 ++ if greedy then further.1 ++ [k'] else k' :: further.1, further.2)

section Rounds

variable {step : Cursor → List Cursor} {start x : Cursor} {fuel : Nat} {seen : List Nat}
  {ks : List Cursor} {st : List Cursor × List Nat}

theorem roundsFrom_succ : roundsFrom step greedy (fuel + 1) seen k =
    if k.position ∈ seen then ([], seen)
    else (step k).foldl (goOn step greedy fuel k) ([], k.position :: seen) := rfl

theorem mem_goOn_iff : x ∈ (goOn step greedy fuel k st k').1 ↔ x ∈ st.1 ∨ x = k' ∨
    k'.position ≠ k.position ∧ x ∈ (roundsFrom step greedy fuel st.2 k').1 := by
  unfold goOn
  split
  · next idle => simp [idle]
  · next moved => cases greedy <;> simp [moved, or_comm]

theorem seen_goOn : (goOn step greedy fuel k st k').2 =
    if k'.position = k.position then st.2 else (roundsFrom step greedy fuel st.2 k').2 :=
  apply_ite Prod.snd _ _ _

/-- The places of a text that were seen since `seen` are done with: what one round leads to from any
of them is found, and is seen itself. -/
def Closed (step : Cursor → List Cursor) (start : Cursor) (seen : List Nat)
    (st : List Cursor × List Nat) : Prop :=
  ∀ y, Ahead start y → y.position ∈ st.2 → y.position ∉ seen →
    ∀ z ∈ step y, z ∈ st.1 ∧ z.position ∈ st.2

/-- What is found and seen from a place on. -/
structure Visited (step : Cursor → List Cursor) (k : Cursor) (seen : List Nat)
    (st : List Cursor × List Nat) : Prop where
  /-- Only places that rounds lead to are found. -/
  sound : ∀ x ∈ st.1, Relation.TransGen (fun a b => b ∈ step a) k x
  /-- Nothing that was seen is forgotten. -/
  grows : seen ⊆ st.2
  /-- The place is seen. -/
  self : k.position ∈ st.2

/-- One round from a place has led to the places `ks`, and all that follows from these is done
with. -/
structure Begun (step : Cursor → List Cursor) (start k : Cursor) (seen : List Nat)
    (ks : List Cursor) (st : List Cursor × List Nat) : Prop extends Visited step k seen st where
  first : ∀ z ∈ ks, z ∈ st.1 ∧ z.position ∈ st.2
  closed : Closed step start (k.position :: seen) st

/-- All that follows from a place is done with. -/
structure Explored (step : Cursor → List Cursor) (start k : Cursor) (seen : List Nat)
    (st : List Cursor × List Nat) : Prop extends Visited step k seen st where
  closed : Closed step start seen st

theorem Begun.nil (step : Cursor → List Cursor) (start k : Cursor) (seen : List Nat) :
    Begun step start k seen [] ([], k.position :: seen) where
  sound := by simp
  grows := List.subset_cons_self _ _
  self := List.mem_cons_self
  first := by simp
  closed := fun _ _ mem new => absurd mem new

theorem Begun.goOn (h : Begun step start k seen ks st) (round : k' ∈ step k)
    (further : k'.position ≠ k.position →
      Explored step start k' st.2 (roundsFrom step greedy fuel st.2 k')) :
    Begun step start k seen (ks ++ [k']) (goOn step greedy fuel k st k') := by
  -- nothing that was found or seen before is lost by going on
  have keeps : st.2 ⊆ (Regex.goOn step greedy fuel k st k').2 := by
    rw [seen_goOn]
    split
    · exact fun _ mem => mem
    · next moved => exact (further moved).grows
  have finds {x} (mem : x ∈ st.1) : x ∈ (Regex.goOn step greedy fuel k st k').1 :=
    mem_goOn_iff.mpr (.inl mem)
  refine ⟨⟨fun x mem => ?_, fun _ mem => keeps (h.grows mem), keeps h.self⟩, ?_, ?_⟩
  · rcases mem_goOn_iff.mp mem with old | rfl | ⟨moved, new⟩
    · exact h.sound x old
    · exact .single round
    · exact .head round ((further moved).sound x new)
  · refine List.forall_mem_append.mpr ⟨fun z mem => ?_, List.forall_mem_singleton.mpr ⟨?_, ?_⟩⟩
    · exact ⟨finds (h.first z mem).1, keeps (h.first z mem).2⟩
    · exact mem_goOn_iff.mpr (.inr (.inl rfl))
    · rw [seen_goOn]
      split
      · next idle => exact idle ▸ h.self
      · next moved => exact (further moved).self
  · intro y ahead mem new z follows
    by_cases old : y.position ∈ st.2
    · obtain ⟨found, passed⟩ := h.closed y ahead old new z follows
      exact ⟨finds found, keeps passed⟩
    · -- the place was seen on the way on from `k'`
      rw [seen_goOn] at mem ⊢
      split at mem
      · exact absurd mem old
      · next moved =>
        obtain ⟨found, passed⟩ := (further moved).closed y ahead mem old z follows
        rw [if_neg moved]
        exact ⟨mem_goOn_iff.mpr (.inr (.inr ⟨moved, found⟩)), passed⟩

/-- Going on from all places that one round leads to. -/
theorem Begun.foldl (h : Begun step start k seen ks st) {ks' : List Cursor}
    (rounds : ∀ z ∈ ks', z ∈ step k)
    (further : ∀ z ∈ step k, z.position ≠ k.position → ∀ seen,
      Explored step start z seen (roundsFrom step greedy fuel seen z)) :
    Begun step start k seen (ks ++ ks') (ks'.foldl (Regex.goOn step greedy fuel k) st) := by
  induction ks' generalizing ks st with
  | nil => rwa [List.append_nil]
  | cons k' ks' ih =>
    obtain ⟨round, rounds⟩ := List.forall_mem_cons.mp rounds
    have rest := ih (h.goOn round fun moved => further k' round moved st.2) rounds
    rwa [List.append_assoc] at rest

theorem Begun.explored (h : Begun step start k seen (step k) st) (here : Ahead start k) :
    Explored step start k seen st := by
  refine ⟨h.toVisited, fun y ahead mem new z follows => ?_⟩
  by_cases same : y.position = k.position
  · obtain rfl := ahead.eq_of_position here same
    exact h.first z follows
  · exact h.closed y ahead mem (by simp [same, new]) z follows

variable (ahead : ∀ k k', k' ∈ step k → Ahead k k')

include ahead

/-- Going on from a place explores it, if there are as many rounds left as characters. -/
theorem explored_roundsFrom (greedy : Bool) (here : Ahead start k)
    (enough : k.after.length < fuel) (seen : List Nat) :
    Explored step start k seen (roundsFrom step greedy fuel seen k) := by
  induction fuel generalizing k seen with
  | zero => exact absurd enough (Nat.not_lt_zero _)
  | succ fuel ih =>
    rw [roundsFrom_succ]
    split
    · next passed =>
      exact ⟨⟨by simp, fun _ mem => mem, passed⟩, fun _ _ mem new => absurd mem new⟩
    · have begun := (Begun.nil step start k seen).foldl (fun _ round => round)
        fun k' round moved seen => by
          have further := ahead k k' round
          have shorter := further.position_add
          have behind := further.position_le
          exact ih (here.trans further) (by omega) seen
      exact begun.explored here

/-- Rounds from a place find all places that rounds lead to. -/
theorem mem_roundsFrom_iff (greedy : Bool) :
    k' ∈ (roundsFrom step greedy (k.after.length + 1) [] k).1 ↔
      Relation.TransGen (fun a b => b ∈ step a) k k' := by
  have explored := explored_roundsFrom ahead greedy (.refl k) (Nat.lt_succ_self _) []
  refine ⟨explored.sound k', fun h => ?_⟩
  have reached : Ahead k k' ∧ k' ∈ (roundsFrom step greedy (k.after.length + 1) [] k).1 ∧
      k'.position ∈ (roundsFrom step greedy (k.after.length + 1) [] k).2 := by
    induction h with
    | single round =>
      exact ⟨ahead _ _ round, explored.closed k (.refl k) explored.self List.not_mem_nil _ round⟩
    | tail _ round ih =>
      obtain ⟨here, -, passed⟩ := ih
      exact ⟨here.trans (ahead _ _ round),
        explored.closed _ here passed List.not_mem_nil _ round⟩
  exact reached.2.1

end Rounds

/-! ## Ends -/

/-- Leaving out repeated places loses none. -/
theorem mem_distinct_iff (start : Cursor) {ks : List Cursor} (ahead : ∀ k ∈ ks, Ahead start k) :
    k ∈ distinct ks ↔ k ∈ ks := by
  induction ks with
  | nil => rfl
  | cons k' ks ih =>
    obtain ⟨first, later⟩ := List.forall_mem_cons.mp ahead
    rw [distinct, List.mem_cons, List.mem_filter, ih later, List.mem_cons, decide_eq_true_eq]
    constructor
    · exact Or.imp id And.left
    · rintro (rfl | mem)
      · exact .inl rfl
      · by_cases same : k.position = k'.position
        · exact .inl ((later k mem).eq_of_position first same)
        · exact .inr ⟨mem, same⟩

/-- The ends that are listed are the places up to which the expression matches. -/
theorem mem_ends_iff : k' ∈ r.ends k ↔ Matches r k k' := by
  induction r generalizing k k' with
  | empty =>
    rw [ends, List.mem_singleton]
    exact ⟨fun h => h ▸ .empty, fun | .empty => rfl⟩
  | one s =>
    rw [ends]
    constructor
    · intro h
      split at h
      · next next =>
        split at h
        · next has => exact List.mem_singleton.mp h ▸ .one next has
        · cases h
      · cases h
    · rintro (_ | ⟨next, has⟩)
      simp [next, has]
  | anchor a =>
    rw [ends]
    constructor
    · intro h
      split at h
      · next holds =>
        obtain rfl := List.mem_singleton.mp h
        exact .anchor holds
      · cases h
    · rintro (_ | _ | holds)
      simp [holds]
  | cat r s first second =>
    rw [ends, mem_distinct_iff k, List.mem_flatMap]
    · constructor
      · rintro ⟨k₁, before, after⟩
        exact .cat (first.mp before) (second.mp after)
      · rintro (_ | _ | _ | ⟨before, after⟩)
        exact ⟨_, first.mpr before, second.mpr after⟩
    · intro x mem
      obtain ⟨k₁, before, after⟩ := List.mem_flatMap.mp mem
      exact (first.mp before).ahead.trans (second.mp after).ahead
  | alt r s first second =>
    have either : k' ∈ r.ends k ++ s.ends k ↔ Matches (.alt r s) k k' := by
      rw [List.mem_append, first, second]
      constructor
      · exact Or.rec .left .right
      · rintro (_ | _ | _ | _ | h | h)
        · exact .inl h
        · exact .inr h
    rw [ends, mem_distinct_iff k, either]
    intro x mem
    exact (List.mem_append.mp mem).elim (fun h => (first.mp h).ahead) fun h => (second.mp h).ahead
  | plus greedy r ih =>
    -- each round moves ahead, so one round for each character left and one more are enough
    have rounds {x} : x ∈ (roundsFrom (ends r) greedy (k.after.length + 1) [] k).1 ↔
        Matches (.plus greedy r) k x := by
      rw [mem_roundsFrom_iff (fun _ _ round => (ih.mp round).ahead), matches_plus_iff]
      simp only [ih]
    rw [ends, mem_distinct_iff k fun x mem => (rounds.mp mem).ahead, rounds]

/-! ## Matches anywhere -/

theorem isSome_findFrom_iff {position : Nat} {before : Option Char} {cs : List Char} :
    (r.findFrom position before cs).isSome = true ↔
      ∃ k k', Ahead ⟨position, before, cs⟩ k ∧ Matches r k k' := by
  induction cs generalizing position before with
  | nil =>
    simp only [findFrom, List.isSome_head?, Cursor.ahead_end_iff, exists_and_left, exists_eq_left,
      ← mem_ends_iff]
    exact ⟨List.exists_mem_of_ne_nil _, fun ⟨_, mem⟩ => List.ne_nil_of_mem mem⟩
  | cons c cs ih =>
    have here : (∃ k k', Ahead ⟨position, before, c :: cs⟩ k ∧ Matches r k k') ↔
        (∃ k', Matches r ⟨position, before, c :: cs⟩ k') ∨
          ∃ k k', Ahead ⟨position + 1, some c, cs⟩ k ∧ Matches r k k' := by
      simp only [Cursor.ahead_cons_iff, or_and_right, exists_or, exists_and_left, exists_eq_left]
    rw [here, ← ih, findFrom]
    split
    · next k ks found =>
      have found : k ∈ r.ends ⟨position, before, c :: cs⟩ := by simp [found]
      exact iff_of_true rfl (.inl ⟨k, mem_ends_iff.mp found⟩)
    · next none => simp [← mem_ends_iff, none]

/-- There is a match in a text if the expression matches from some place of it on. -/
theorem isMatch_iff {cs : List Char} :
    r.isMatch cs = true ↔ ∃ k k', Ahead (.start cs) k ∧ Matches r k k' :=
  isSome_findFrom_iff

end DirectiveRunner.Regex
