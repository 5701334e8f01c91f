import DirectiveRunner.Proofs.Form
/-!
# Written directives are read back

A directive written on one comment line of TeX is extracted as it was written
(`Directive.extract_written`). Two things have to be known for that: where the comment pattern stops,
and that no other way to take the text apart is preferred (`Directive.readForm?_written`).
-/

namespace DirectiveRunner

/-! ## The preferred match -/

namespace Regex

theorem head?_distinct (ks : List Cursor) : (distinct ks).head? = ks.head? := by
  cases ks <;> rfl

variable {r s : Regex} {k k₁ k₂ : Cursor}

/-- The preferred match is the first one from the first place that has one. -/
theorem afterMatch?_of_head? {cs : List Char} (h : (r.ends (.start cs)).head? = some k) :
    r.afterMatch? cs = some k.after := by
  obtain ⟨ks, all⟩ := List.head?_eq_some_iff.mp h
  unfold Cursor.start at all
  cases cs <;> simp [afterMatch?, findFrom, all]

theorem head?_ends_cat (first : (r.ends k).head? = some k₁) (second : (s.ends k₁).head? = some k₂) :
    ((cat r s).ends k).head? = some k₂ := by
  obtain ⟨ks, all⟩ := List.head?_eq_some_iff.mp first
  obtain ⟨ks', all'⟩ := List.head?_eq_some_iff.mp second
  simp [ends, head?_distinct, all, all']

theorem roundsFrom_one_cons {set : CharSet} {c : Char} {cs : List Char} (after : k.after = c :: cs)
    (has : set.has c = true) {seen : List Nat} (unseen : k.position ∉ seen) (fuel : Nat) :
    (roundsFrom (ends (.one set)) true (fuel + 1) seen k).1 =
      (roundsFrom (ends (.one set)) true fuel (k.position :: seen)
        ⟨k.position + 1, some c, cs⟩).1 ++ [⟨k.position + 1, some c, cs⟩] := by
  have step : ends (.one set) k = [⟨k.position + 1, some c, cs⟩] := by
    simp [ends, Cursor.next?, after, has]
  simp [roundsFrom, unseen, step]

/-- A greedy run takes all characters it can. -/
theorem head?_roundsFrom_one {set : CharSet} {cs rest : List Char}
    (all : ∀ c ∈ cs, set.has c = true) (stops : ∀ c ∈ rest.head?, set.has c = false)
    {fuel : Nat} (enough : cs.length < fuel) (seen : List Nat) (k : Cursor)
    (later : ∀ p ∈ seen, p < k.position) (after : k.after = cs ++ rest) :
    ∃ k', ((roundsFrom (ends (.one set)) true fuel seen k).1 ++ [k]).head? = some k' ∧
      k'.after = rest := by
  -- positions only grow along the run, so no place has been seen when it is reached
  induction cs generalizing fuel seen k with
  | nil =>
    obtain ⟨fuel, rfl⟩ := Nat.exists_eq_add_of_lt enough
    have unseen : k.position ∉ seen := fun mem => Nat.lt_irrefl _ (later _ mem)
    have stuck : ends (.one set) k = [] := by
      rw [ends, Cursor.next?, after]
      cases rest with
      | nil => rfl
      | cons c rest => simp [stops c rfl]
    refine ⟨k, ?_, after⟩
    simp [roundsFrom, unseen, stuck]
  | cons c cs ih =>
    obtain ⟨first, all⟩ := List.forall_mem_cons.mp all
    obtain ⟨fuel, rfl⟩ : ∃ n, fuel = n + 1 := ⟨fuel - 1, by omega⟩
    have unseen : k.position ∉ seen := fun mem => Nat.lt_irrefl _ (later _ mem)
    have enough : cs.length < fuel := by simpa using enough
    obtain ⟨k', found, taken⟩ := ih all enough (k.position :: seen)
      ⟨k.position + 1, some c, cs ++ rest⟩
      (List.forall_mem_cons.mpr ⟨Nat.lt_succ_self _, fun p mem => Nat.lt_succ_of_lt (later p mem)⟩)
      rfl
    refine ⟨k', ?_, taken⟩
    rw [List.cons_append] at after
    rw [roundsFrom_one_cons after first unseen, List.head?_append, found]
    rfl

theorem head?_ends_star_one {set : CharSet} {cs rest : List Char}
    (all : ∀ c ∈ cs, set.has c = true) (stops : ∀ c ∈ rest.head?, set.has c = false)
    (after : k.after = cs ++ rest) :
    ∃ k', ((star true (.one set)).ends k).head? = some k' ∧ k'.after = rest := by
  have enough : cs.length < k.after.length + 1 := by
    rw [after, List.length_append]
    omega
  obtain ⟨k', found, taken⟩ := head?_roundsFrom_one all stops enough [] k (by simp) after
  refine ⟨k', ?_, taken⟩
  rw [List.head?_append] at found
  simpa [star, opt, ends, head?_distinct, List.head?_append] using found

theorem head?_ends_plus_one {set : CharSet} {c : Char} {cs rest : List Char}
    (all : ∀ d ∈ c :: cs, set.has d = true) (stops : ∀ d ∈ rest.head?, set.has d = false)
    (after : k.after = c :: (cs ++ rest)) :
    ∃ k', ((plus true (.one set)).ends k).head? = some k' ∧ k'.after = rest := by
  obtain ⟨first, all⟩ := List.forall_mem_cons.mp all
  have enough : cs.length < k.after.length := by
    rw [after, List.length_cons, List.length_append]
    omega
  obtain ⟨k', found, taken⟩ := head?_roundsFrom_one all stops enough [k.position]
    ⟨k.position + 1, some c, cs ++ rest⟩ (by simp) rfl
  refine ⟨k', ?_, taken⟩
  rw [ends, head?_distinct, roundsFrom_one_cons after first List.not_mem_nil]
  exact found

end Regex

/-! ## Comments of TeX -/

namespace FileType

/-- What the comment pattern denotes: blanks, a percent sign and at least one blank. -/
def commentRegex : Regex :=
  .cat (.anchor .textStart) (.cat (.star true (.one (.unicode .blank)))
    (.cat (.one (.single '%')) (.plus true (.one (.unicode .blank)))))

def tex : FileType := ⟨"tex", ⟨texPattern, commentRegex⟩⟩

theorem regex_texPattern : Regex.read? texPattern.toList = some commentRegex := by
  decide +kernel

theorem pattern_of_mem_defaults {type : FileType} (known : type ∈ defaults) :
    Regex.read? texPattern.toList = some type.pattern.regex := by
  simp only [defaults, List.mem_filterMap] at known
  obtain ⟨extension, -, compiled⟩ := known
  obtain ⟨regex, read, rfl⟩ := compile?_eq_some_iff.mp compiled
  exact read

/-- The comment pattern takes the percent sign with the blanks around it. -/
theorem afterMatch?_comment {type : FileType} (known : type ∈ defaults) {ws vs rest : List Char}
    (blank : Text.allBlank ws = true) (blank' : Text.allBlank vs = true) (some_blank : vs ≠ [])
    (stops : ∀ c ∈ rest.head?, Text.isBlank c = false) :
    type.pattern.regex.afterMatch? (ws ++ '%' :: (vs ++ rest)) = some rest := by
  have pattern := pattern_of_mem_defaults known
  rw [regex_texPattern, Option.some_inj] at pattern
  obtain ⟨v, vs, rfl⟩ := List.exists_cons_of_ne_nil some_blank
  let cs := ws ++ '%' :: (v :: vs ++ rest)
  -- the regex is a chain, and its first match is followed from one part to the next
  have start : ((Regex.anchor .textStart).ends (.start cs)).head? = some (.start cs) := rfl
  have all : ∀ c ∈ ws, (Regex.CharSet.unicode .blank).has c = true := List.all_eq_true.mp blank
  have all' : ∀ c ∈ v :: vs, (Regex.CharSet.unicode .blank).has c = true :=
    List.all_eq_true.mp blank'
  have stops' : ∀ c ∈ ('%' :: (v :: vs ++ rest)).head?,
      (Regex.CharSet.unicode .blank).has c = false := by
    rintro c ⟨⟩
    decide
  obtain ⟨k₁, before, after₁⟩ := Regex.head?_ends_star_one (k := .start cs) all stops' rfl
  let k₂ : Regex.Cursor := ⟨k₁.position + 1, some '%', v :: vs ++ rest⟩
  have sign : ((Regex.one (.single '%')).ends k₁).head? = some k₂ := by
    simp [Regex.ends, Regex.Cursor.next?, after₁, Regex.CharSet.has_single, k₂]
  obtain ⟨k₃, gap, after₃⟩ := Regex.head?_ends_plus_one (k := k₂) all' stops rfl
  have whole : (commentRegex.ends (.start cs)).head? = some k₃ :=
    Regex.head?_ends_cat start (Regex.head?_ends_cat before (Regex.head?_ends_cat sign gap))
  rw [← pattern, Regex.afterMatch?_of_head? whole, after₃]

end FileType

namespace Directive

/-! ## Directives on one line -/

/-- The ways to write a form on a comment line, with blanks around its parts. -/
def Form.OnLine (f : Form) (line : String) : Prop :=
  ∃ ws vs us ts text, Text.allBlank ws = true ∧ Text.allBlank vs = true ∧ vs ≠ [] ∧
    Text.allBlank us = true ∧ Text.allBlank ts = true ∧ f.Written text ∧
    line.toList = ws ++ '%' :: (vs ++ (keyword ++ (us ++ (text ++ ts))))

/-- The parameters of a form: none, or the entries of a map that does not name the reference. -/
def Form.Holds (f : Form) (parameters : Bindings) : Prop :=
  match f.parameters with
  | none => parameters = []
  | some p => (Yaml.read? p).map Yaml.Data.toValue = some (.map parameters) ∧
      Dict.contains referenceKey parameters = false

theorem afterStart?_keyword (cs : List Char) : Text.afterStart? keyword (keyword ++ cs) = some cs :=
  Text.afterStart?_eq_some_iff.mpr rfl

theorem classify_onLine {f : Form} (proper : f.Proper) {line : String} (h : f.OnLine line)
    {type : FileType} (known : type ∈ FileType.defaults) :
    ∃ text, classify type line = .start text ∧ readForm? text = some f := by
  obtain ⟨ws, vs, us, ts, text, blank₁, blank₂, some_blank, blank₃, blank₄, written, line⟩ := h
  have visible : ∀ c ∈ (keyword ++ (us ++ (text ++ ts))).head?, Text.isBlank c = false := by
    rintro c ⟨⟩
    decide
  have start : Text.trimStart (keyword ++ (us ++ (text ++ ts))) = keyword ++ (us ++ (text ++ ts)) :=
    Text.trimStart_eq_self rfl
  have body : Text.trim (us ++ (text ++ ts)) = Text.trim text := by
    rw [Text.trim, Text.trimStart_append_of_allBlank blank₃]
    exact Text.trim_append_of_allBlank blank₄ text
  have read : readForm? text = some f := readForm?_written proper written
  refine ⟨Text.trim text, ?_, by rw [readForm?_trim, read]⟩
  simp only [classify, line, FileType.afterMatch?_comment known blank₁ blank₂ some_blank visible,
    start, afterStart?_keyword, body, not_continued_of_readForm? read]

theorem parts?_conditional {f : Form} (proper : f.Proper) :
    f.conditional.parts? = f.condition.map fun (keyword, e) => (keyword, .ofList e) := by
  unfold Form.conditional
  cases condition : f.condition with
  | none => rfl
  | some c =>
    obtain ⟨keyword, e⟩ := c
    obtain ⟨c, made⟩ : ∃ c, Conditional.ofKeyword? keyword (.ofList e) = some c := by
      have mem : keyword ∈ keywords := proper.keyword _ condition
      simp only [keywords, List.mem_cons, List.not_mem_nil, or_false] at mem
      rcases mem with rfl | rfl | rfl | rfl <;> exact ⟨_, rfl⟩
    simpa [made] using Conditional.ofKeyword?_eq_some_iff.mp made

theorem Form.Holds.ofForm {f : Form} {parameters : Bindings} (holds : f.Holds parameters)
    (lineNumbers : List Nat) : ofForm f lineNumbers =
      .ok ⟨.ofList f.identifier, parameters, f.conditional, lineNumbers⟩ := by
  obtain ⟨identifier, written?, condition⟩ := f
  cases written? with
  | none =>
    have nothing : parameters = [] := holds
    subst nothing
    exact ofForm_eq_ok_iff.mpr ⟨[], rfl, rfl, rfl⟩
  | some p =>
    obtain ⟨map, unreserved⟩ : (Yaml.read? p).map Yaml.Data.toValue = some (.map parameters) ∧
      Dict.contains referenceKey parameters = false := holds
    have read : Directive.readParameters p = .ok parameters := by
      simp only [Directive.readParameters, map]
    exact ofForm_eq_ok_iff.mpr ⟨parameters, read, unreserved, rfl⟩

/-- **Reading back a written directive.** A directive that is written on one line of a TeX file is
extracted with the identifier, the parameters and the conditional that were written. -/
theorem extract_written {f : Form} (proper : f.Proper) {line : String} (h : f.OnLine line)
    {parameters : Bindings} (holds : f.Holds parameters) {type : FileType}
    (known : type ∈ FileType.defaults) (headerOnly : Bool) :
    ∃ d, extract [line] headerOnly type = .ok [d] ∧ d.identifier = .ofList f.identifier ∧
      d.parameters = parameters ∧
      d.conditional.parts? = f.condition.map (fun (keyword, e) => (keyword, .ofList e)) ∧
      d.lineNumbers = [1] := by
  obtain ⟨text, start, read⟩ := classify_onLine proper h known
  refine ⟨⟨.ofList f.identifier, parameters, f.conditional, [1]⟩, ?_, rfl, rfl,
    parts?_conditional proper, rfl⟩
  have raw : ofRaw ⟨text, [1]⟩ = .ok ⟨.ofList f.identifier, parameters, f.conditional, [1]⟩ := by
    simp only [ofRaw, read, holds.ofForm]
  have gathered : gather headerOnly 1 none [classify type line] = .ok [⟨text, [1]⟩] := by
    rw [start]
    rfl
  rw [extract, List.map_singleton, gathered]
  show [Raw.mk text [1]].mapM ofRaw = _
  rw [List.mapM_cons, raw]
  rfl

theorem extract_written_pdflatex :
    ∃ d, extract ["  % arara: pdflatex : \x7b shell: yes \x7d if missing('pdf') "] false .tex = .ok [d] ∧
      d.identifier = "pdflatex" ∧ d.parameters = [("shell", .str "yes")] ∧
      d.conditional.parts? = some ("if", "missing('pdf')") ∧ d.lineNumbers = [1] := by
  let f : Form := ⟨"pdflatex".toList, some "\x7b shell: yes \x7d".toList,
    some ("if", "missing('pdf')".toList)⟩
  have proper : f.Proper :=
    { identifier := ⟨by decide, List.all_eq_true.mp (by decide +kernel)⟩
      parameters := by decide +kernel
      keyword := by decide +kernel
      expression := by decide +kernel
      apart := by decide +kernel }
  have written : f.Written "pdflatex : \x7b shell: yes \x7d if missing('pdf')".toList :=
    ⟨_, _, @WrittenParameters.some [' '] [' '] _ rfl rfl,
      @WrittenCondition.some [' '] [' '] _ _ rfl (by decide) rfl (by decide), by decide⟩
  exact extract_written proper
    ⟨[' ', ' '], [' '], [' '], [' '], _, rfl, rfl, by decide, rfl, rfl, written, by decide +kernel⟩
    ⟨by decide +kernel, by decide⟩ (by decide +kernel) false

end Directive

end DirectiveRunner
