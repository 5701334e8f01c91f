import DirectiveRunner.Proofs.Written
import Mathlib.Data.List.Forall2
/-!
# How directive lines are grouped

The lines of a text that have to do with directives (`Directive.body?`) fall into groups: a line that
starts a directive, and the continuations up to the next such line. What `gather` finds are these groups
(`gather_eq_gatherEntries`, `gatherEntries_open`), and what is extracted is what the groups are read as
(`Directive.extract_groups`).
-/

namespace DirectiveRunner

/-! ## Reading one after the other -/

variable {α β ε : Type} {f : α → Except ε β}

theorem mapM_eq_ok_iff {xs : List α} {ys : List β} :
    xs.mapM f = .ok ys ↔ List.Forall₂ (fun x y => f x = .ok y) xs ys := by
  induction xs generalizing ys with
  | nil => cases ys <;> simp [pure, Except.pure]
  | cons x xs ih =>
    rw [List.mapM_cons]
    cases first : f x with
    | error e => cases ys <;> simp [bind, Except.bind, first]
    | ok y =>
      cases later : xs.mapM f with
      | error e => cases ys <;> simp [bind, Except.bind, ← ih, later, first]
      | ok ys' => cases ys <;> simp [bind, Except.bind, pure, Except.pure, ← ih, later, first]

theorem exists_mapM_eq_ok_iff {xs : List α} :
    (∃ ys, xs.mapM f = .ok ys) ↔ ∀ x ∈ xs, ∃ y, f x = .ok y := by
  simp only [mapM_eq_ok_iff]
  induction xs with
  | nil => exact ⟨fun _ => by simp, fun _ => ⟨[], .nil⟩⟩
  | cons x xs ih =>
    rw [List.forall_mem_cons, ← ih]
    constructor
    · rintro ⟨_, first | ⟨first, later⟩⟩
      exact ⟨⟨_, first⟩, _, later⟩
    · rintro ⟨⟨y, first⟩, ys, later⟩
      exact ⟨y :: ys, .cons first later⟩

theorem exists_of_mem_mapM {xs : List α} {ys : List β} (h : xs.mapM f = .ok ys) :
    ∀ y ∈ ys, ∃ x ∈ xs, f x = .ok y := by
  have each := mapM_eq_ok_iff.mp h
  clear h
  induction each with
  | nil => simp
  | cons first _ ih =>
    intro y mem
    rcases List.mem_cons.mp mem with rfl | later
    · exact ⟨_, List.mem_cons_self, first⟩
    · obtain ⟨x, mem, read⟩ := ih y later
      exact ⟨x, List.mem_cons_of_mem _ mem, read⟩

/-- The first failure is the one that is reported. -/
theorem exists_of_mapM_eq_error {xs : List α} {e : ε} (h : xs.mapM f = .error e) :
    ∃ before x after, xs = before ++ x :: after ∧ (∀ a ∈ before, ∃ b, f a = .ok b) ∧
      f x = .error e := by
  induction xs with
  | nil => cases h
  | cons x xs ih =>
    rw [List.mapM_cons] at h
    cases first : f x with
    | error e' =>
      rw [first] at h
      cases h
      exact ⟨[], x, xs, rfl, by simp, first⟩
    | ok y =>
      rw [first] at h
      cases later : xs.mapM f with
      | ok ys =>
        rw [later] at h
        cases h
      | error e' =>
        rw [later] at h
        cases h
        obtain ⟨before, a, after, rfl, read, failed⟩ := ih later
        exact ⟨x :: before, a, after, rfl, List.forall_mem_cons.mpr ⟨⟨y, first⟩, read⟩, failed⟩

namespace Directive

/-! ## Directive lines -/

/-- What a line holds after the keyword, trimmed; none if it is no directive line. -/
def body? (type : FileType) (line : String) : Option (List Char) :=
  ((type.pattern.regex.afterMatch? line.toList).bind fun rest =>
    Text.afterStart? keyword (Text.trimStart rest)).map Text.trim

/-- Whether a line is a comment that starts with the keyword. -/
def isDirectiveLine (type : FileType) (line : String) : Bool := (body? type line).isSome

/-- A directive line: its number and what it holds after the keyword. -/
structure Entry where
  number : Nat
  body : List Char
deriving DecidableEq, Repr

/-- Whether a directive line continues a directive. -/
def Entry.isContinuation (e : Entry) : Bool := (Text.afterStart? continuation e.body).isSome

/-- What a directive line adds to the text of its directive; the marker of a continuation is no part
of it. -/
def Entry.text (e : Entry) : List Char :=
  match Text.afterStart? continuation e.body with
  | some more => Text.trim more
  | none => e.body

/-- The directive lines among lines, the first of which has number `number`. -/
def entriesFrom (type : FileType) (number : Nat) : List String → List Entry
  | [] => []
  | line :: lines =>
    match body? type line with
    | some body => ⟨number, body⟩ :: entriesFrom type (number + 1) lines
    | none => entriesFrom type (number + 1) lines

def entries (type : FileType) (lines : List String) : List Entry := entriesFrom type 1 lines

/-- The numbers of the directive lines of a text, in increasing order. -/
def directiveLines (type : FileType) (lines : List String) : List Nat :=
  (List.range' 1 lines.length).filter fun n => lines[n - 1]?.any (isDirectiveLine type)

variable {type : FileType}

theorem number_entriesFrom (number : Nat) (lines : List String) :
    (entriesFrom type number lines).map Entry.number =
      (List.range' number lines.length).filter fun n =>
        lines[n - number]?.any (isDirectiveLine type) := by
  induction lines generalizing number with
  | nil => rfl
  | cons line lines ih =>
    have later : ((List.range' (number + 1) lines.length).filter fun n =>
        (line :: lines)[n - number]?.any (isDirectiveLine type)) =
        (List.range' (number + 1) lines.length).filter fun n =>
          lines[n - (number + 1)]?.any (isDirectiveLine type) := by
      refine List.filter_congr fun n mem => ?_
      obtain ⟨k, -, rfl⟩ := List.mem_range'.mp mem
      have shift : number + 1 + 1 * k - number = k + 1 := by omega
      have shift' : number + 1 + 1 * k - (number + 1) = k := by omega
      rw [shift, shift', List.getElem?_cons_succ]
    rw [List.length_cons, List.range'_succ, List.filter_cons, later, ← ih, entriesFrom]
    cases body : body? type line <;> simp [isDirectiveLine, body]

theorem body_entriesFrom (number : Nat) (lines : List String) :
    (entriesFrom type number lines).map Entry.body =
      (lines.filter (isDirectiveLine type)).filterMap (body? type) := by
  induction lines generalizing number with
  | nil => rfl
  | cons line lines ih =>
    rw [entriesFrom]
    cases body : body? type line with
    | none => simp [isDirectiveLine, body, ih]
    | some b => simp [isDirectiveLine, body, ih]

/-! ## Groups -/

/-- A directive line that starts a directive, and the lines that continue it. -/
structure Group where
  /-- The line that starts the directive. -/
  first : Entry
  /-- The lines that continue it. -/
  more : List Entry
  starts : first.isContinuation = false
  continues : ∀ e ∈ more, e.isContinuation = true

namespace Group

def entries (g : Group) : List Entry := g.first :: g.more

/-- The text of a group: what its lines hold, without the markers, with a blank between each two. -/
def text (g : Group) : List Char := Text.joinWith [' '] (g.entries.map Entry.text)

/-- What is gathered from a group. -/
def raw (g : Group) : Raw := ⟨g.text, g.entries.map Entry.number⟩

def single (e : Entry) (h : e.isContinuation = false) : Group := ⟨e, [], h, by simp⟩

def add (g : Group) (e : Entry) (h : e.isContinuation = true) : Group :=
  ⟨g.first, g.more ++ [e], g.starts, by
    rw [List.forall_mem_append]
    exact ⟨g.continues, List.forall_mem_singleton.mpr h⟩⟩

@[simp] theorem entries_single (e : Entry) (h : e.isContinuation = false) :
    (single e h).entries = [e] := rfl

@[simp] theorem entries_add (g : Group) (e : Entry) (h : e.isContinuation = true) :
    (g.add e h).entries = g.entries ++ [e] := rfl

theorem raw_add (g : Group) (e : Entry) (h : e.isContinuation = true) :
    (g.add e h).raw = ⟨g.raw.text ++ ' ' :: e.text, g.raw.lineNumbers ++ [e.number]⟩ := by
  have some_text : g.entries.map Entry.text ≠ [] := List.cons_ne_nil _ _
  simp [raw, text, Text.joinWith_concat some_text]

end Group

/-- Gathers the directives of directive lines; `open?` is the directive that may be continued. -/
def gatherEntries (open? : Option Raw) : List Entry → Except RunError (List Raw)
  | [] => .ok open?.toList
  | e :: es =>
    if e.isContinuation then
      match open? with
      | none => .error (.directiveParse e.number .orphan)
      | some r => gatherEntries (some ⟨r.text ++ ' ' :: e.text, r.lineNumbers ++ [e.number]⟩) es
    else do
      let rs ← gatherEntries (some ⟨e.text, [e.number]⟩) es
      return open?.toList ++ rs

section

variable {e : Entry} (es : List Entry)

theorem gatherEntries_start (h : e.isContinuation = false) (open? : Option Raw) :
    gatherEntries open? (e :: es) =
      gatherEntries (some ⟨e.text, [e.number]⟩) es >>= fun rs => .ok (open?.toList ++ rs) := by
  have unmarked : ¬e.isContinuation = true := by simp [h]
  cases open? with
  | none => rw [gatherEntries, if_neg unmarked]; rfl
  | some r => rw [gatherEntries, if_neg unmarked]; rfl

theorem gatherEntries_more (h : e.isContinuation = true) (r : Raw) :
    gatherEntries (some r) (e :: es) =
      gatherEntries (some ⟨r.text ++ ' ' :: e.text, r.lineNumbers ++ [e.number]⟩) es := by
  simp [gatherEntries, h]

theorem gatherEntries_orphan (h : e.isContinuation = true) :
    gatherEntries none (e :: es) = .error (.directiveParse e.number .orphan) := by
  simp [gatherEntries, h]

end

theorem classify_of_no_body {line : String} (h : body? type line = none) :
    classify type line = .code ∨ classify type line = .comment := by
  unfold body? at h
  unfold classify
  split
  · exact .inl rfl
  · next rest found =>
    rw [found, Option.map_eq_none_iff] at h
    have unmarked : Text.afterStart? keyword (Text.trimStart rest) = none := h
    rw [unmarked]
    exact .inr rfl

theorem classify_of_body {line : String} {b : List Char} (h : body? type line = some b) :
    classify type line =
      match Text.afterStart? continuation b with
      | some more => .more (Text.trim more)
      | none => .start b := by
  simp only [body?, Option.map_eq_some_iff, Option.bind_eq_some_iff] at h
  obtain ⟨written, ⟨rest, found, marked⟩, rfl⟩ := h
  cases continued : Text.afterStart? continuation (Text.trim written) <;>
    simp only [classify, found, marked, continued]

/-- Only directive lines make a difference. -/
theorem gather_eq_gatherEntries (number : Nat) (open? : Option Raw) (lines : List String) :
    gather false number open? (lines.map (classify type)) =
      gatherEntries open? (entriesFrom type number lines) := by
  induction lines generalizing number open? with
  | nil => rfl
  | cons line lines ih =>
    rw [List.map_cons, entriesFrom]
    cases body : body? type line with
    | none =>
      rcases classify_of_no_body body with kind | kind
      · rw [kind]
        exact ih (number + 1) open?
      · rw [kind]
        exact ih (number + 1) open?
    | some b =>
      rw [classify_of_body body]
      cases continued : Text.afterStart? continuation b with
      | none => simp [gather, gatherEntries, Entry.isContinuation, Entry.text, continued, ih]
      | some more =>
        cases open? with
        | none => simp [gather, gatherEntries, Entry.isContinuation, continued]
        | some r => simp [gather, gatherEntries, Entry.isContinuation, Entry.text, continued, ih]

/-- What is gathered are the groups, the first of which has been begun. -/
theorem gatherEntries_open (g : Group) (es : List Entry) :
    ∃ groups : List Group, gatherEntries (some g.raw) es = .ok (groups.map Group.raw) ∧
      g.entries ++ es = groups.flatMap Group.entries := by
  -- the group grows as long as the lines to come continue it, and then the next one begins
  induction es generalizing g with
  | nil => exact ⟨[g], rfl, by simp⟩
  | cons e es ih =>
    cases continued : e.isContinuation with
    | true =>
      obtain ⟨groups, gathered, all⟩ := ih (g.add e continued)
      rw [Group.raw_add] at gathered
      exact ⟨groups, by rw [gatherEntries_more es continued, gathered], by simpa using all⟩
    | false =>
      obtain ⟨groups, gathered, all⟩ := ih (.single e continued)
      refine ⟨g :: groups, ?_, by simpa using all⟩
      rw [gatherEntries_start es continued]
      show (gatherEntries (some (Group.single e continued).raw) es >>= _) = _
      rw [gathered]
      rfl

/-! ## The directives of groups -/

theorem extract_eq_gatherEntries (lines : List String) : extract lines false type =
    (gatherEntries none (entries type lines)) >>= fun raw => raw.mapM ofRaw := by
  rw [extract, gather_eq_gatherEntries]
  rfl

/-- Either the first directive line continues nothing, or the directive lines are those of groups. -/
theorem gatherEntries_cases (es : List Entry) :
    (∃ e, es.head? = some e ∧ e.isContinuation = true ∧
      gatherEntries none es = .error (.directiveParse e.number .orphan)) ∨
    ∃ groups : List Group, es = groups.flatMap Group.entries ∧
      gatherEntries none es = .ok (groups.map Group.raw) := by
  cases es with
  | nil => exact .inr ⟨[], rfl, rfl⟩
  | cons e es =>
    cases continued : e.isContinuation with
    | true => exact .inl ⟨e, rfl, continued, gatherEntries_orphan es continued⟩
    | false =>
      obtain ⟨groups, gathered, all⟩ := gatherEntries_open (.single e continued) es
      refine .inr ⟨groups, all, ?_⟩
      rw [gatherEntries_start es continued]
      show (gatherEntries (some (Group.single e continued).raw) es >>= _) = _
      rw [gathered]
      rfl

theorem ofRaw_eq_ok_iff {r : Raw} {d : Directive} :
    ofRaw r = .ok d ↔ ∃ f, readForm? r.text = some f ∧ ofForm f r.lineNumbers = .ok d := by
  unfold ofRaw
  cases form : readForm? r.text with
  | none => simp
  | some f => cases made : ofForm f r.lineNumbers <;> simp [made]

theorem ofRaw_of_mem_extract {lines : List String} {headerOnly : Bool} {type : FileType}
    {ds : List Directive} (h : extract lines headerOnly type = .ok ds) {d : Directive}
    (mem : d ∈ ds) : ∃ r, ofRaw r = .ok d := by
  unfold extract at h
  cases gathered : gather headerOnly 1 none (lines.map (classify type)) with
  | error e =>
    rw [gathered] at h
    cases h
  | ok raw =>
    rw [gathered] at h
    obtain ⟨r, -, read⟩ := exists_of_mem_mapM h d mem
    exact ⟨r, read⟩

theorem line_of_ofRaw_eq_error {r : Raw} {e : RunError} (h : ofRaw r = .error e) :
    ∃ p, e = .directiveParse r.line p := by
  unfold ofRaw at h
  dsimp only at h
  split at h
  · cases h
  · next p _ =>
    cases h
    exact ⟨p, rfl⟩

/-- A gathered directive is read as if it were written on one line. -/
theorem extract_singleton {r : Raw} {d : Directive} (read : ofRaw r = .ok d) {line : String}
    (h : body? type line = some (Text.trim r.text)) (headerOnly : Bool) :
    extract [line] headerOnly type = .ok [{ d with lineNumbers := [1] }] := by
  obtain ⟨f, form, made⟩ := ofRaw_eq_ok_iff.mp read
  have start : classify type line = .start (Text.trim r.text) := by
    rw [classify_of_body h, not_continued_of_readForm? form]
  have renumbered : ofForm f [1] = .ok { d with lineNumbers := [1] } := by
    obtain ⟨parameters, map, unreserved, rfl⟩ := ofForm_eq_ok_iff.mp made
    exact ofForm_eq_ok_iff.mpr ⟨parameters, map, unreserved, rfl⟩
  have one : ofRaw ⟨Text.trim r.text, [1]⟩ = .ok { d with lineNumbers := [1] } :=
    ofRaw_eq_ok_iff.mpr ⟨f, by rw [readForm?_trim, form], renumbered⟩
  rw [extract, List.map_singleton, start]
  show [Raw.mk (Text.trim r.text) [1]].mapM ofRaw = _
  rw [List.mapM_cons, one]
  rfl

/-! ## Lines that are no directive lines -/

/-- The directive without its line numbers; how many there are is kept. -/
def unnumbered (d : Directive) : Directive :=
  { d with lineNumbers := d.lineNumbers.map fun _ => 0 }

def Raw.unnumbered (r : Raw) : Raw := { r with lineNumbers := r.lineNumbers.map fun _ => 0 }

def Entry.unnumbered (e : Entry) : Entry := { e with number := 0 }

def unnumberedError : RunError → RunError
  | .directiveParse _ p => .directiveParse 0 p
  | e => e

/-- A result with its line numbers taken out by `g`. -/
def unnumberedBy (g : α → β) : Except RunError α → Except RunError β
  | .ok a => .ok (g a)
  | .error e => .error (unnumberedError e)

/-- Directives that were extracted, or the error, without line numbers. -/
def withoutNumbers : Except RunError (List Directive) → Except RunError (List Directive) :=
  unnumberedBy (List.map unnumbered)

theorem unnumberedBy_bind {γ δ : Type} {g : α → β} {p : γ → δ} {a : Except RunError α}
    {k : α → Except RunError γ} {m : β → Except RunError δ}
    (h : ∀ x, unnumberedBy p (k x) = m (g x)) :
    unnumberedBy p (a >>= k) = unnumberedBy g a >>= m := by
  cases a with
  | error e => rfl
  | ok x => exact h x

theorem gatherEntries_unnumbered (open? : Option Raw) (es : List Entry) :
    unnumberedBy (List.map Raw.unnumbered) (gatherEntries open? es) =
      gatherEntries (open?.map Raw.unnumbered) (es.map Entry.unnumbered) := by
  -- by induction on the entries, whether a directive is open or not
  induction es generalizing open? with
  | nil => cases open? <;> rfl
  | cons e es ih =>
    have same : e.unnumbered.isContinuation = e.isContinuation := rfl
    rw [List.map_cons]
    cases continued : e.isContinuation with
    | true =>
      have continued' : e.unnumbered.isContinuation = true := same.trans continued
      cases open? with
      | none =>
        rw [gatherEntries_orphan es continued, Option.map_none, gatherEntries_orphan _ continued']
        rfl
      | some r =>
        rw [gatherEntries_more es continued, ih, Option.map_some, Option.map_some,
          gatherEntries_more _ continued']
        simp [Raw.unnumbered, Entry.unnumbered, Entry.text]
    | false =>
      have continued' : e.unnumbered.isContinuation = false := same.trans continued
      rw [gatherEntries_start es continued, gatherEntries_start _ continued',
        unnumberedBy_bind (g := List.map Raw.unnumbered) (m := fun rs =>
          .ok ((open?.map Raw.unnumbered).toList ++ rs)), ih]
      · rfl
      · intro rs
        cases open? <;> rfl

theorem ofRaw_unnumbered (r : Raw) :
    unnumberedBy unnumbered (ofRaw r) = ofRaw r.unnumbered := by
  have line : r.unnumbered.line = 0 := by
    obtain ⟨text, lineNumbers⟩ := r
    cases lineNumbers <;> rfl
  have text : r.unnumbered.text = r.text := rfl
  unfold ofRaw
  rw [text, line]
  cases readForm? r.text with
  | none => rfl
  | some f =>
    dsimp only
    rw [ofForm_lineNumbers f r.lineNumbers, ofForm_lineNumbers f r.unnumbered.lineNumbers]
    cases ofForm f [] <;> rfl

theorem mapM_ofRaw_unnumbered (rs : List Raw) :
    withoutNumbers (rs.mapM ofRaw) = (rs.map Raw.unnumbered).mapM ofRaw := by
  induction rs with
  | nil => rfl
  | cons r rs ih =>
    rw [List.map_cons, List.mapM_cons, List.mapM_cons, ← ofRaw_unnumbered, ← ih]
    exact unnumberedBy_bind fun d => unnumberedBy_bind fun ds => rfl

theorem entriesFrom_unnumbered (number : Nat) (lines : List String) :
    (entriesFrom type number lines).map Entry.unnumbered =
      ((lines.filter (isDirectiveLine type)).filterMap (body? type)).map (Entry.mk 0) := by
  rw [← body_entriesFrom number, List.map_map]
  rfl

/-- Other lines change nothing but line numbers. -/
theorem extract_unnumbered (lines : List String) : withoutNumbers (extract lines false type) =
    gatherEntries none (((lines.filter (isDirectiveLine type)).filterMap (body? type)).map
      (Entry.mk 0)) >>= fun raw => raw.mapM ofRaw := by
  rw [extract_eq_gatherEntries, ← entriesFrom_unnumbered 1]
  show unnumberedBy _ (_ >>= _) = gatherEntries (Option.map Raw.unnumbered none) _ >>= _
  rw [← gatherEntries_unnumbered]
  exact unnumberedBy_bind mapM_ofRaw_unnumbered

/-! ## Extraction -/

/-- A directive is what a group of lines is read as. -/
structure Group.Yields (type : FileType) (g : Group) (d : Directive) : Prop where
  /-- It has the numbers of the lines. -/
  lineNumbers : d.lineNumbers = g.entries.map Entry.number
  /-- It is read from what the lines hold. -/
  read : ofRaw g.raw = .ok d
  /-- It could have been written on one line. -/
  oneLine : ∀ line, body? type line = some (Text.trim g.text) → ∀ headerOnly,
    extract [line] headerOnly type = .ok [{ d with lineNumbers := [1] }]

/-- The first directive line continues nothing, which the error says of it. -/
def Orphaned (es : List Entry) (e : RunError) : Prop :=
  ∃ first, es.head? = some first ∧ first.isContinuation = true ∧
    e = .directiveParse first.number .orphan

/-- One group cannot be read, and the groups before it can; the error is that of the group, at its
first line. -/
def Unreadable (es : List Entry) (e : RunError) : Prop :=
  ∃ (before : List Group) (g : Group) (after : List Group) (p : DirectiveProblem),
    es = (before ++ g :: after).flatMap Group.entries ∧
    (∀ b ∈ before, ∃ d, ofRaw b.raw = .ok d) ∧
    ofRaw g.raw = .error e ∧ e = .directiveParse g.first.number p

theorem Group.yields_of_ofRaw {g : Group} {d : Directive} (h : ofRaw g.raw = .ok d) :
    g.Yields type d := by
  obtain ⟨f, -, made⟩ := ofRaw_eq_ok_iff.mp h
  obtain ⟨parameters, -, -, rfl⟩ := ofForm_eq_ok_iff.mp made
  exact ⟨rfl, h, fun line body headerOnly => extract_singleton h body headerOnly⟩

theorem flatMap_lineNumbers {groups : List Group} {ds : List Directive}
    (h : List.Forall₂ (Group.Yields type) groups ds) :
    ds.flatMap Directive.lineNumbers = (groups.flatMap Group.entries).map Entry.number := by
  induction h with
  | nil => rfl
  | cons first _ ih => simp [first.lineNumbers, ih]

/-- **How directives are made of lines.** Directives are extracted from groups of directive lines: each
directive line belongs to exactly one group, and other lines make no difference. The first failure is
reported with the line on which its directive starts. -/
theorem extract_groups (type : FileType) (lines : List String) :
    (∀ ds, extract lines false type = .ok ds →
      ds.flatMap Directive.lineNumbers = directiveLines type lines ∧
      ∃ groups : List Group, entries type lines = groups.flatMap Group.entries ∧
        List.Forall₂ (Group.Yields type) groups ds) ∧
    (∀ e, extract lines false type = .error e →
      Orphaned (entries type lines) e ∨ Unreadable (entries type lines) e) ∧
    ∀ lines', lines'.filter (isDirectiveLine type) = lines.filter (isDirectiveLine type) →
      withoutNumbers (extract lines' false type) = withoutNumbers (extract lines false type) := by
  refine ⟨fun ds ok => ?_, fun e failed => ?_, fun lines' same => ?_⟩
  · -- there is no orphan among the lines, since they are gathered
    rw [extract_eq_gatherEntries] at ok
    rcases gatherEntries_cases (entries type lines) with ⟨e, -, -, orphan⟩ | ⟨groups, all, gathered⟩
    · rw [orphan] at ok
      cases ok
    · rw [gathered] at ok
      have read : List.Forall₂ (Group.Yields type) groups ds :=
        (List.forall₂_map_left_iff.mp (mapM_eq_ok_iff.mp ok)).imp fun _ _ => Group.yields_of_ofRaw
      refine ⟨?_, groups, all, read⟩
      rw [flatMap_lineNumbers read, ← all]
      exact number_entriesFrom 1 lines
  · rw [extract_eq_gatherEntries] at failed
    rcases gatherEntries_cases (entries type lines) with
      ⟨first, head, continued, orphan⟩ | ⟨groups, all, gathered⟩
    · rw [orphan] at failed
      cases failed
      exact .inl ⟨first, head, continued, rfl⟩
    · rw [gathered] at failed
      obtain ⟨_, r, _, cut, read, problem⟩ := exists_of_mapM_eq_error failed
      obtain ⟨before, rest, rfl, rfl, begun⟩ := List.map_eq_append_iff.mp cut
      obtain ⟨g, after, rfl, rfl, -⟩ := List.map_eq_cons_iff.mp begun
      obtain ⟨p, line⟩ := line_of_ofRaw_eq_error problem
      exact .inr ⟨before, g, after, p, all, fun b mem => read b.raw (List.mem_map_of_mem mem),
        problem, line⟩
  · rw [extract_unnumbered, extract_unnumbered, same]

theorem extract_groups_continued :
    let lines := ["Text", "% arara: pdflatex: \x7b", "% Text", "% arara: --> shell: yes \x7d",
      "% arara: clean"]
    let ds : List Directive := [⟨"pdflatex", [("shell", .str "yes")], .none, [2, 4]⟩,
      ⟨"clean", [], .none, [5]⟩]
    let unread := ["% arara: clean", "% arara: all of it", "% arara: --> once"]
    let e := RunError.directiveParse 2 (.badForm "all of it once")
    (extract lines false .tex = .ok ds ∧
      ds.flatMap Directive.lineNumbers = directiveLines .tex lines) ∧
    (extract unread false .tex = .error e ∧
      (Orphaned (entries .tex unread) e ∨ Unreadable (entries .tex unread) e)) ∧
    withoutNumbers (extract ("" :: lines) false .tex) =
      withoutNumbers (extract lines false .tex) := by
  intro lines ds unread e
  have ok : extract lines false .tex = .ok ds := by decide +kernel
  have failed : extract unread false .tex = .error e := by decide +kernel
  refine ⟨⟨ok, ((extract_groups .tex lines).1 ds ok).1⟩,
    ⟨failed, (extract_groups .tex unread).2.1 e failed⟩, ?_⟩
  exact (extract_groups .tex lines).2.2 _ (by decide +kernel)

end Directive

end DirectiveRunner
