import DirectiveRunner.Directive.Extract
import DirectiveRunner.Proofs.Token
/-!
# Reading the form of a directive

A text can be taken apart in several ways, and `readForm?` prefers some to others. This file says what
cannot shift the borders between the parts it finds.

* `readForm?_trim` — blanks around a text are not looked at;
* `readForm?_arrow` — a text that starts with the marker of a continuation has no form;
* `Form.Written` — the ways to write a form, the reverse of reading;
* `readForm?_written` — a form is read from every text it is written in.
-/

namespace DirectiveRunner.Directive

variable {cs ws : List Char}

/-! ## Blanks after a form -/

/-- No part of a form starts or ends with a blank. -/
theorem not_part_of_isBlank {c : Char} (h : Text.isBlank c = true) :
    isIdentifierChar c = false ∧ c ∉ [':', '\x7b', '\x7d'] ∧ ∀ k ∈ keywords, c ∉ k.toList := by
  have table : Expr.blanks.all (fun c => decide (c ≠ '-' ∧ c ∉ [':', '\x7b', '\x7d'] ∧
      ∀ k ∈ keywords, c ∉ k.toList)) = true := by decide
  obtain ⟨hyphen, others⟩ :=
    of_decide_eq_true (List.all_eq_true.mp table c (Expr.mem_blanks h))
  exact ⟨by simp [isIdentifierChar, (Expr.not_isWord_of_isBlank h).1, hyphen], others⟩

theorem afterStart?_append_blanks {start : List Char} (h : Text.allBlank ws = true)
    (visible : ∀ c ∈ start, Text.isBlank c = false) (cs : List Char) :
    Text.afterStart? start (cs ++ ws) = (Text.afterStart? start cs).map (· ++ ws) := by
  induction start generalizing cs with
  | nil => rfl
  | cons s start ih =>
    obtain ⟨first, visible⟩ := List.forall_mem_cons.mp visible
    cases cs with
    | nil =>
      cases ws with
      | nil => rfl
      | cons c ws =>
        have blank : Text.isBlank c = true := List.all_eq_true.mp h c List.mem_cons_self
        have other : s ≠ c := by
          rintro rfl
          simp [first] at blank
        simp [Text.afterStart?, other]
    | cons c cs =>
      rw [List.cons_append, Text.afterStart?, Text.afterStart?]
      split
      · exact ih visible cs
      · rfl

theorem readExpression?_append_blanks (h : Text.allBlank ws = true) (cs : List Char) :
    readExpression? (cs ++ ws) = readExpression? cs := by
  cases cs with
  | nil =>
    cases ws with
    | nil => rfl
    | cons c ws =>
      have nothing : Text.trimEnd (Text.trimStart (c :: ws)) = [] := Text.trim_of_allBlank h
      simp [readExpression?, nothing]
  | cons c cs =>
    have same : Text.trimEnd (Text.trimStart (c :: (cs ++ ws))) =
        Text.trimEnd (Text.trimStart (c :: cs)) := Text.trim_append_of_allBlank h (c :: cs)
    simp only [List.cons_append, readExpression?, same]

theorem findSome?_congr {α β : Type} {l : List α} {f g : α → Option β}
    (h : ∀ a ∈ l, f a = g a) : l.findSome? f = l.findSome? g := by
  induction l with
  | nil => rfl
  | cons a l ih =>
    obtain ⟨first, later⟩ := List.forall_mem_cons.mp h
    rw [List.findSome?_cons, List.findSome?_cons, first, ih later]

theorem readCondition?_append_blanks (h : Text.allBlank ws = true) (cs : List Char) :
    readCondition? (cs ++ ws) = readCondition? cs := by
  have visible {k : String} (mem : k ∈ keywords) : ∀ c ∈ k.toList, Text.isBlank c = false := by
    intro c hc
    by_contra blank
    exact (not_part_of_isBlank (eq_true_of_ne_false blank)).2.2 k mem hc
  unfold readCondition?
  refine findSome?_congr fun k mem => ?_
  rw [afterStart?_append_blanks h (visible mem)]
  cases Text.afterStart? k.toList cs with
  | none => rfl
  | some r => simp [readExpression?_append_blanks h]

theorem readEnd?_append_blanks (h : Text.allBlank ws = true) (before : Option Char)
    (cs : List Char) : readEnd? before (cs ++ ws) = readEnd? before cs := by
  unfold readEnd?
  rw [Text.trimStart_append, Text.trimStart_of_allBlank h]
  split
  · next nothing =>
    have none_left (b : Bool) : (if b then none else readCondition? []) = none := by
      cases b <;> rfl
    simp only [nothing, none_left]
  · next something =>
    have more : (Text.trimStart cs ++ ws).isEmpty = (Text.trimStart cs).isEmpty := by
      cases rest : Text.trimStart cs with
      | nil => exact absurd rest something
      | cons c r => rfl
    simp only [List.length_append, Nat.add_lt_add_iff_right, readCondition?_append_blanks h, more]

theorem bracedParts_of_not_mem {cs : List Char} (h : '\x7d' ∉ cs) (before : List Char) :
    bracedParts before cs = [] := by
  induction cs generalizing before with
  | nil => rfl
  | cons c cs ih =>
    obtain ⟨other, later⟩ := not_or.mp (mt List.mem_cons.mpr h)
    simp [bracedParts, Ne.symm other, ih later]

theorem bracedParts_append_blanks (h : Text.allBlank ws = true) (before cs : List Char) :
    bracedParts before (cs ++ ws) =
      (bracedParts before cs).map fun (braced, rest) => (braced, rest ++ ws) := by
  induction cs generalizing before with
  | nil =>
    have unbraced : '\x7d' ∉ ws := fun mem =>
      absurd (List.all_eq_true.mp h _ mem) (by decide)
    exact bracedParts_of_not_mem unbraced before
  | cons c cs ih =>
    rw [List.cons_append, bracedParts, bracedParts]
    split
    · rfl
    · rw [ih, List.map_append]
      split <;> rfl

theorem readRest?_append_blanks (h : Text.allBlank ws = true) (identifier cs : List Char) :
    readRest? identifier (cs ++ ws) = readRest? identifier cs := by
  -- the same cuts after a brace are tried, with the blanks at the end of what is left by each
  have braced (before r : List Char) : (bracedParts before (r ++ ws)).findSome? (fun p =>
      (readEnd? (some '\x7d') p.2).map fun condition => (⟨identifier, some p.1, condition⟩ : Form)) =
      (bracedParts before r).findSome? fun p =>
        (readEnd? (some '\x7d') p.2).map fun condition => ⟨identifier, some p.1, condition⟩ := by
    rw [bracedParts_append_blanks h, List.findSome?_map]
    exact findSome?_congr fun p _ => by simp [readEnd?_append_blanks h]
  unfold readRest?
  rw [readEnd?_append_blanks h, Text.trimStart_append, Text.trimStart_of_allBlank h]
  cases trimmed : Text.trimStart cs with
  | nil => rfl
  | cons c r =>
    rw [if_neg (List.cons_ne_nil c r), List.cons_append]
    by_cases colon : c = ':'
    · subst colon
      simp only
      rw [Text.trimStart_append, Text.trimStart_of_allBlank h]
      cases inner : Text.trimStart r with
      | nil => rfl
      | cons d r =>
        rw [if_neg (List.cons_ne_nil d r), List.cons_append]
        by_cases brace : d = '\x7b'
        · subst brace
          simp only [braced]
        · simp [brace]
    · simp [colon]

theorem readUpTo?_append_blanks (h : Text.allBlank ws = true) {n : Nat} (le : n ≤ cs.length) :
    readUpTo? (cs ++ ws) n = readUpTo? cs n := by
  induction n with
  | zero => rfl
  | succ n ih =>
    rw [readUpTo?, readUpTo?, ih (Nat.le_of_succ_le le), List.take_append_of_le_length le,
      List.drop_append_of_le_length le, readRest?_append_blanks h]

theorem takeWhile_append_blanks (h : Text.allBlank ws = true) (cs : List Char) :
    (cs ++ ws).takeWhile isIdentifierChar = cs.takeWhile isIdentifierChar := by
  have ends : ∀ c ∈ ws.head?, isIdentifierChar c = false := fun c hc =>
    (not_part_of_isBlank (List.all_eq_true.mp h c (List.mem_of_head? hc))).1
  induction cs with
  | nil =>
    have nothing : ∀ c ∈ ([] : List Char), isIdentifierChar c = true := by simp
    exact Expr.takeWhile_append_of_head? nothing ends
  | cons c cs ih => simp [List.takeWhile_cons, ih]

/-- Blanks around a text are not looked at. -/
theorem readForm?_trim (cs : List Char) : readForm? (Text.trim cs) = readForm? cs := by
  obtain ⟨ws, blank, split⟩ := Text.exists_trimEnd_append (Text.trimStart cs)
  have split : Text.trimStart cs = Text.trim cs ++ ws := split
  simp only [readForm?, Text.trimStart_trim]
  rw [split, takeWhile_append_blanks blank, readUpTo?_append_blanks blank]
  exact (List.takeWhile_prefix _).length_le

/-! ## Texts without a form -/

theorem readRest?_of_no_colon {cs : List Char} (h : (Text.trimStart cs).head? ≠ some ':')
    (identifier : List Char) : readRest? identifier cs =
      (readEnd? identifier.getLast? cs).map fun condition => ⟨identifier, none, condition⟩ := by
  unfold readRest?
  cases trimmed : Text.trimStart cs with
  | nil => rfl
  | cons c r =>
    have other : c ≠ ':' := by simpa [trimmed] using h
    simp [other]

/-- Nothing that starts with an arrow is a form, although hyphens start an identifier. -/
theorem readForm?_arrow (cs : List Char) : readForm? ('-' :: '-' :: '>' :: cs) = none := by
  have all : ∀ c ∈ ['-', '-'], isIdentifierChar c = true := by simp [isIdentifierChar]
  have stops : ∀ c ∈ ('>' :: cs).head?, isIdentifierChar c = false := by
    rintro c ⟨⟩
    decide +kernel
  have hyphens : ('-' :: '-' :: '>' :: cs).takeWhile isIdentifierChar = ['-', '-'] :=
    Expr.takeWhile_append_of_head? all stops
  have ends (before : Option Char) (c : Char) (r : List Char) (h : c = '-' ∨ c = '>') :
      readEnd? before (c :: r) = none := by
    have visible : Text.trimStart (c :: r) = c :: r := by rcases h with rfl | rfl <;> rfl
    have wordless : readCondition? (c :: r) = none := by rcases h with rfl | rfl <;> rfl
    simp [readEnd?, visible, wordless]
  have start : Text.trimStart ('-' :: '-' :: '>' :: cs) = '-' :: '-' :: '>' :: cs := rfl
  have both : readRest? ['-', '-'] ('>' :: cs) = none := by
    rw [readRest?_of_no_colon (by simp [Text.trimStart, Text.isBlank]), ends _ _ _ (.inr rfl)]
    rfl
  have first : readRest? ['-'] ('-' :: '>' :: cs) = none := by
    rw [readRest?_of_no_colon (by simp [Text.trimStart, Text.isBlank]), ends _ _ _ (.inl rfl)]
    rfl
  simp [readForm?, start, hyphens, readUpTo?, both, first]

/-- A text that is read as a form continues no directive. -/
theorem not_continued_of_readForm? {f : Form} (h : readForm? cs = some f) :
    Text.afterStart? continuation (Text.trim cs) = none := by
  cases continued : Text.afterStart? continuation (Text.trim cs) with
  | none => rfl
  | some more =>
    have arrow : Text.trim cs = '-' :: '-' :: '>' :: more := Text.afterStart?_eq_some_iff.mp continued
    rw [← readForm?_trim, arrow, readForm?_arrow] at h
    cases h

/-! ## Written forms -/

/-- The ways to write the parameters after an identifier. -/
inductive WrittenParameters : Option (List Char) → List Char → Prop
  | none : WrittenParameters none []
  | some {ws vs braced} : Text.allBlank ws = true → Text.allBlank vs = true →
    WrittenParameters (some braced) (ws ++ ':' :: (vs ++ braced))

/-- The ways to write a condition after what comes before it. -/
inductive WrittenCondition : Option (String × List Char) → List Char → Prop
  | none : WrittenCondition none []
  | some {ws vs keyword e} : Text.allBlank ws = true → ws ≠ [] → Text.allBlank vs = true → vs ≠ [] →
    WrittenCondition (some (keyword, e)) (ws ++ (keyword.toList ++ (vs ++ e)))

namespace Form

/-- The parts of a form are texts that can stand for such parts. -/
structure Proper (f : Form) : Prop where
  identifier : f.identifier ≠ [] ∧ ∀ c ∈ f.identifier, isIdentifierChar c = true
  parameters : ∀ p ∈ f.parameters, p.head? = some '\x7b' ∧ p.getLast? = some '\x7d' ∧ '\n' ∉ p
  keyword : ∀ c ∈ f.condition, c.1 ∈ keywords
  expression : ∀ c ∈ f.condition, c.2 ≠ [] ∧ Text.hasBlankEnd c.2 = false ∧ '\n' ∉ c.2
  /-- The parameters end at the last brace. -/
  apart : f.parameters.isSome → ∀ c ∈ f.condition, '\x7d' ∉ c.2

/-- The ways to write a form, with blanks between the parts. -/
def Written (f : Form) (cs : List Char) : Prop :=
  ∃ ps vs, WrittenParameters f.parameters ps ∧ WrittenCondition f.condition vs ∧
    cs = f.identifier ++ (ps ++ vs)

end Form

theorem readExpression?_blanks (blank : Text.allBlank ws = true) (some_blank : ws ≠ [])
    {e : List Char} (nonempty : e ≠ []) (bare : Text.hasBlankEnd e = false) (line : '\n' ∉ e) :
    readExpression? (ws ++ e) = some e := by
  obtain ⟨c, r, rfl⟩ := List.exists_cons_of_ne_nil some_blank
  have trimmed : Text.trimEnd (Text.trimStart (c :: (r ++ e))) = e := by
    rw [← List.cons_append, Text.trimStart_append_of_allBlank blank]
    exact Text.trim_eq_self bare
  have first : Text.isBlank c = true := List.all_eq_true.mp blank c List.mem_cons_self
  simp [readExpression?, trimmed, first, nonempty, line]

/-- No keyword starts another one. -/
theorem readCondition?_keyword {keyword : String} (mem : keyword ∈ keywords) {cs e : List Char}
    (h : readExpression? cs = some e) :
    readCondition? (keyword.toList ++ cs) = some (keyword, e) := by
  have found : (Text.afterStart? keyword.toList (keyword.toList ++ cs)).bind
      (fun r => (readExpression? r).map (keyword, ·)) = some (keyword, e) := by
    rw [Text.afterStart?_eq_some_iff.mpr rfl, Option.bind_some, h, Option.map_some]
  unfold readCondition?
  rw [List.findSome?_eq_some_iff]
  simp only [keywords, List.mem_cons, List.not_mem_nil, or_false] at mem
  rcases mem with rfl | rfl | rfl | rfl
  · exact ⟨[], _, _, rfl, found, nofun⟩
  · exact ⟨["if"], _, _, rfl, found, List.forall_mem_singleton.mpr rfl⟩
  · exact ⟨["if", "unless"], _, _, rfl, found,
      List.forall_mem_cons.mpr ⟨rfl, List.forall_mem_singleton.mpr rfl⟩⟩
  · exact ⟨["if", "unless", "while"], _, _, rfl, found, List.forall_mem_cons.mpr
      ⟨rfl, List.forall_mem_cons.mpr ⟨rfl, List.forall_mem_singleton.mpr rfl⟩⟩⟩

theorem exists_keyword_cons {keyword : String} (mem : keyword ∈ keywords) :
    ∃ c r, keyword.toList = c :: r ∧ Text.isBlank c = false ∧ c ≠ ':' := by
  simp only [keywords, List.mem_cons, List.not_mem_nil, or_false] at mem
  rcases mem with rfl | rfl | rfl | rfl <;> exact ⟨_, _, rfl, rfl, by decide⟩

theorem trimStart_blanks_keyword (blank : Text.allBlank ws = true) {keyword : String}
    (mem : keyword ∈ keywords) (cs : List Char) :
    Text.trimStart (ws ++ (keyword.toList ++ cs)) = keyword.toList ++ cs := by
  obtain ⟨c, r, text, visible, -⟩ := exists_keyword_cons mem
  rw [Text.trimStart_append_of_allBlank blank]
  exact Text.trimStart_eq_self (by simp [text, visible])

/-- A written condition is read, whatever comes before it. -/
theorem readEnd?_written {f : Form} (proper : f.Proper) {cs : List Char}
    (h : WrittenCondition f.condition cs) (before : Option Char) :
    readEnd? before cs = some f.condition := by
  cases condition : f.condition with
  | none =>
    rw [condition] at h
    cases h
    cases hb : before.any Text.isWord
    · simp [readEnd?, Text.trimStart, hb]
      rfl
    · simp [readEnd?, Text.trimStart, hb]
  | some c =>
    obtain ⟨keyword, e⟩ := c
    obtain ⟨nonempty, bare, line⟩ := proper.expression _ condition
    have mem : keyword ∈ keywords := proper.keyword _ condition
    rw [condition] at h
    cases h with
    | @some ws vs _ _ blank some_blank blank' some_blank' =>
      have read : readCondition? (keyword.toList ++ (vs ++ e)) = some (keyword, e) :=
        readCondition?_keyword mem (readExpression?_blanks blank' some_blank' nonempty bare line)
      -- something was trimmed, so it does not matter what stands before the blanks
      have shorter : (keyword.toList ++ (vs ++ e)).length <
          (ws ++ (keyword.toList ++ (vs ++ e))).length := by
        have := List.length_pos_iff.mpr some_blank
        simp only [List.length_append]
        omega
      simp only [readEnd?, trimStart_blanks_keyword blank mem, if_pos shorter, Option.any_none,
        Bool.false_eq_true, if_false, read]

/-- The longest parameters end at the last closing brace of the line. -/
theorem bracedParts_last {inside rest : List Char} (line : '\n' ∉ inside) (last : '\x7d' ∉ rest)
    (before : List Char) : ∃ others, bracedParts before (inside ++ '\x7d' :: rest) =
      (before.reverse ++ inside ++ ['\x7d'], rest) :: others := by
  induction inside generalizing before with
  | nil => simp [bracedParts, bracedParts_of_not_mem last]
  | cons c inside ih =>
    obtain ⟨first, line⟩ := not_or.mp (mt List.mem_cons.mpr line)
    obtain ⟨others, found⟩ := ih line (c :: before)
    rw [List.cons_append, bracedParts, if_neg (Ne.symm first), found]
    simp

theorem exists_inside {p : List Char} (first : p.head? = some '\x7b')
    (last : p.getLast? = some '\x7d') (line : '\n' ∉ p) :
    ∃ inside, p = '\x7b' :: (inside ++ ['\x7d']) ∧ '\n' ∉ inside := by
  obtain ⟨start, rfl⟩ := List.getLast?_eq_some_iff.mp last
  cases start with
  | nil => cases first
  | cons c inside =>
    cases first
    exact ⟨inside, rfl, fun feed => line (by simp [feed])⟩

theorem not_mem_of_writtenCondition {f : Form} (proper : f.Proper) {cs : List Char}
    (braced : f.parameters.isSome = true) (h : WrittenCondition f.condition cs) : '\x7d' ∉ cs := by
  have other {c : Char} (blank : Text.isBlank c = true) : c ≠ '\x7d' := by
    rintro rfl
    exact absurd blank (by decide)
  cases condition : f.condition with
  | none =>
    rw [condition] at h
    cases h
    exact List.not_mem_nil
  | some c =>
    have apart := proper.apart braced c condition
    have mem := proper.keyword c condition
    rw [condition] at h
    cases h with
    | @some ws vs keyword e blank _ blank' _ =>
      have unbraced : '\x7d' ∉ keyword.toList := by
        simp only [keywords, List.mem_cons, List.not_mem_nil, or_false] at mem
        rcases mem with rfl | rfl | rfl | rfl <;> decide
      simp only [List.mem_append, not_or]
      exact ⟨fun h => other (List.all_eq_true.mp blank _ h) rfl, unbraced,
        fun h => other (List.all_eq_true.mp blank' _ h) rfl, apart⟩

theorem readRest?_written {f : Form} (proper : f.Proper) {ps vs : List Char}
    (parameters : WrittenParameters f.parameters ps) (condition : WrittenCondition f.condition vs) :
    readRest? f.identifier (ps ++ vs) = some f := by
  have read := readEnd?_written proper condition
  obtain ⟨identifier, braced, c⟩ := f
  cases parameters with
  | none =>
    -- neither a keyword nor the end of the text is a colon
    have uncolon : (Text.trimStart vs).head? ≠ some ':' := by
      cases condition with
      | none => simp [Text.trimStart]
      | @some ws _ keyword e blank =>
        have mem := proper.keyword _ rfl
        obtain ⟨c, r, text, -, other⟩ := exists_keyword_cons mem
        rw [trimStart_blanks_keyword blank mem, text]
        simp [other]
    rw [List.nil_append, readRest?_of_no_colon uncolon, read]
    rfl
  | @some ws us p blank blank' =>
    obtain ⟨first, last, line⟩ := proper.parameters p rfl
    obtain ⟨inside, rfl, inside_line⟩ := exists_inside first last line
    have unbraced := not_mem_of_writtenCondition proper rfl condition
    obtain ⟨others, found⟩ := bracedParts_last inside_line unbraced ['\x7b']
    have colon : Text.trimStart (ws ++ ':' :: (us ++ '\x7b' :: (inside ++ '\x7d' :: vs))) =
        ':' :: (us ++ '\x7b' :: (inside ++ '\x7d' :: vs)) := by
      rw [Text.trimStart_append_of_allBlank blank]
      rfl
    have brace : Text.trimStart (us ++ '\x7b' :: (inside ++ '\x7d' :: vs)) =
        '\x7b' :: (inside ++ '\x7d' :: vs) := by
      rw [Text.trimStart_append_of_allBlank blank']
      rfl
    simp only [List.append_assoc, List.cons_append, List.nil_append]
    simp [readRest?, colon, brace, found, read]

theorem ends_identifier {cs : List Char} (blank : Text.allBlank ws = true)
    (h : ws = [] → ∀ c ∈ cs.head?, isIdentifierChar c = false) :
    ∀ c ∈ (ws ++ cs).head?, isIdentifierChar c = false := by
  cases ws with
  | nil => exact h rfl
  | cons d ws =>
    rintro c ⟨⟩
    exact (not_part_of_isBlank (List.all_eq_true.mp blank d List.mem_cons_self)).1

/-- The identifier cannot be longer: a colon, a blank or nothing comes next. -/
theorem ends_written {p : Option (List Char)} {c : Option (String × List Char)} {ps vs : List Char}
    (parameters : WrittenParameters p ps) (condition : WrittenCondition c vs) :
    ∀ d ∈ (ps ++ vs).head?, isIdentifierChar d = false := by
  cases parameters with
  | some blank _ =>
    rw [List.append_assoc]
    exact ends_identifier blank (by rintro - d ⟨⟩; decide)
  | none =>
    cases condition with
    | none => simp
    | some blank some_blank _ _ =>
      rw [List.nil_append]
      exact ends_identifier blank (absurd · some_blank)

/-- Texts in which a form is written are read as that form. -/
theorem readForm?_written {f : Form} (proper : f.Proper) {cs : List Char} (h : f.Written cs) :
    readForm? cs = some f := by
  obtain ⟨ps, vs, parameters, condition, rfl⟩ := h
  obtain ⟨nonempty, all⟩ := proper.identifier
  obtain ⟨c, r, identifier⟩ := List.exists_cons_of_ne_nil nonempty
  have visible : Text.isBlank c = false := by
    by_contra blank
    have := (not_part_of_isBlank (eq_true_of_ne_false blank)).1
    simp [all c (by simp [identifier])] at this
  have ends := ends_written parameters condition
  have start : Text.trimStart (f.identifier ++ (ps ++ vs)) = f.identifier ++ (ps ++ vs) :=
    Text.trimStart_eq_self (by simp [identifier, visible])
  have length : f.identifier.length = r.length + 1 := by simp [identifier]
  rw [readForm?, start, Expr.takeWhile_append_of_head? all ends, length, readUpTo?, ← length,
    List.take_left, List.drop_left, readRest?_written proper parameters condition]

/-! ## What a form stands for -/

namespace Form

/-- The parameters of a form; none are written if there are no braces. -/
def readParameters (f : Form) : Except DirectiveProblem Bindings :=
  match f.parameters with
  | none => .ok []
  | some p => Directive.readParameters p

def conditional (f : Form) : Conditional :=
  (f.condition.bind fun (keyword, e) => Conditional.ofKeyword? keyword (.ofList e)).getD .none

end Form

theorem ofForm_eq (f : Form) (lineNumbers : List Nat) : ofForm f lineNumbers =
    match f.readParameters with
    | .error p => .error p
    | .ok parameters =>
      if Dict.contains referenceKey parameters then .error .reservedParameter
      else .ok ⟨.ofList f.identifier, parameters, f.conditional, lineNumbers⟩ := by
  unfold ofForm Form.readParameters
  cases f.parameters with
  | none => rfl
  | some p =>
    dsimp only
    cases readParameters p with
    | error e => rfl
    | ok parameters =>
      show (if Dict.contains referenceKey parameters then _ else _) =
        if Dict.contains referenceKey parameters then _ else _
      cases Dict.contains referenceKey parameters <;> rfl

theorem ofForm_eq_ok_iff {f : Form} {lineNumbers : List Nat} {d : Directive} :
    ofForm f lineNumbers = .ok d ↔ ∃ parameters, f.readParameters = .ok parameters ∧
      Dict.contains referenceKey parameters = false ∧
      d = ⟨.ofList f.identifier, parameters, f.conditional, lineNumbers⟩ := by
  rw [ofForm_eq]
  constructor
  · intro h
    split at h
    · cases h
    · next parameters read =>
      split at h
      · cases h
      · next unreserved =>
        cases h
        exact ⟨parameters, read, eq_false_of_ne_true unreserved, rfl⟩
  · rintro ⟨parameters, read, unreserved, rfl⟩
    simp only [read, unreserved, Bool.false_eq_true, if_false]

/-- Whether a form stands for a directive does not depend on its lines. -/
theorem ofForm_lineNumbers (f : Form) (lineNumbers : List Nat) :
    ofForm f lineNumbers = (ofForm f []).map fun d => { d with lineNumbers } := by
  rw [ofForm_eq, ofForm_eq]
  cases f.readParameters with
  | error p => rfl
  | ok parameters =>
    dsimp only
    split <;> rfl

end DirectiveRunner.Directive
