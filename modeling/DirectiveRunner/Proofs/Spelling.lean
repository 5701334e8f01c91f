import DirectiveRunner.Path
/-!
# Spellings of a path

A path may be written in many ways. What it leads to depends only on its `moves`, the segments that
are neither empty nor `.`, and on whether it starts at the root. Everything that rewrites a path can be
said in terms of them:

* `moves_join` — joining appends the moves.
* `moves_absoluteFrom` — making a path absolute puts the moves of the base in front.
* `parent?_of_isAbsolute` — the parent of an absolute path has all its moves but the last.
-/

namespace DirectiveRunner.Path

/-- Whether a segment leads to another place. -/
def leads (s : List Char) : Bool := s ≠ [] ∧ s ≠ ['.']

/-- The segments of a path that lead from place to place. -/
def moves (p : Path) : List (List Char) := (Text.pieces '/' p.chars).filter leads

variable {p q : Path} {s : List Char} {ss : List (List Char)}

/-! ## Moves -/

theorem eq_of_chars_eq (h : p.chars = q.chars) : p = q := by
  rw [chars, chars, String.toList_inj] at h
  cases p
  cases q
  exact congrArg mk h

theorem chars_eq_of_isAbsolute (h : p.isAbsolute = true) : p.chars = '/' :: p.chars.drop 1 := by
  cases hc : p.chars with
  | nil => simp [isAbsolute, hc] at h
  | cons c r =>
    obtain rfl : c = '/' := by simpa [isAbsolute, hc] using h
    rfl

theorem moves_eq_segments (p : Path) : p.moves = p.segments.filter leads := by
  cases h : p.isAbsolute with
  | false => rw [moves, segments, h, if_neg Bool.false_ne_true]
  | true =>
    rw [moves, segments, h, if_pos rfl, chars_eq_of_isAbsolute h]
    simp [Text.pieces, leads]

/-- A slash at the end is followed by an empty segment. -/
theorem nil_mem_segments (h : p.chars.getLast? = some '/') : [] ∈ p.segments := by
  have ends {cs : List Char} (last : cs.getLast? = some '/') : [] ∈ Text.pieces '/' cs := by
    obtain ⟨start, rfl⟩ := List.getLast?_eq_some_iff.mp last
    rw [Text.pieces_append_sep]
    exact List.mem_append_right _ List.mem_cons_self
  cases absolute : p.isAbsolute with
  | false => rw [segments, absolute, if_neg Bool.false_ne_true]; exact ends h
  | true =>
    rw [segments, absolute, if_pos rfl]
    rw [chars_eq_of_isAbsolute absolute] at h
    cases rest : p.chars.drop 1 with
    | nil => exact List.mem_cons_self
    | cons c r => rw [rest, List.getLast?_cons_cons] at h; exact ends h

/-- A move is written with characters of the path that are no slashes. -/
theorem mem_of_mem_moves (h : s ∈ p.moves) {c : Char} (hc : c ∈ s) : c ∈ p.chars ∧ c ≠ '/' :=
  Text.mem_of_mem_pieces (List.mem_filter.mp h).1 hc

theorem leads_of_mem_moves (h : s ∈ p.moves) : leads s = true := (List.mem_filter.mp h).2

/-- Joining a path that is not absolute appends its moves. -/
theorem moves_join {r : String} (h : (Path.mk r).isAbsolute = false) :
    (p.join r).moves = p.moves ++ (Path.mk r).moves := by
  have chars : (Path.mk r).chars = r.toList := rfl
  rw [join, if_neg (by simp [h])]
  split
  · next ends =>
    have joined : (Path.mk (p.text ++ r)).chars = p.chars ++ r.toList := by simp [Path.chars]
    rcases Bool.or_eq_true_iff.mp ends with nothing | slash
    · have empty : p.chars = [] := by simpa using nothing
      simp [moves, joined, empty, chars, Text.pieces, leads]
    · -- the slash at the end of `p` has an empty piece after it
      obtain ⟨start, split⟩ := List.getLast?_eq_some_iff.mp (of_decide_eq_true slash)
      rw [moves, joined, moves, moves, chars, split, List.append_assoc, List.singleton_append,
        Text.pieces_append_sep, Text.pieces_append_sep]
      simp [Text.pieces, leads]
  · have joined : (Path.mk (p.text ++ "/" ++ r)).chars = p.chars ++ '/' :: r.toList := by
      simp [Path.chars]
    rw [moves, joined, Text.pieces_append_sep, List.filter_append]
    rfl

/-- The moves of a path that is put together from segments. -/
theorem moves_ofSegments (plain : ∀ s ∈ ss, '/' ∉ s) (absolute : Bool) :
    (ofSegments absolute ss).moves = ss.filter leads := by
  have pieces : (Text.pieces '/' (Text.joinWith ['/'] ss)).filter leads = ss.filter leads := by
    cases ss with
    | nil => simp [Text.joinWith, Text.pieces, leads]
    | cons s ss => rw [Text.pieces_joinWith plain (by simp)]
  cases absolute with
  | false => simpa [moves, ofSegments] using pieces
  | true => simpa [moves, ofSegments, Text.pieces, leads] using pieces

theorem mem_joinWith {c : Char} (h : c ∈ Text.joinWith ['/'] ss) : c = '/' ∨ ∃ s ∈ ss, c ∈ s := by
  induction ss with
  | nil => cases h
  | cons s ss ih =>
    cases ss with
    | nil => exact .inr ⟨s, List.mem_cons_self, h⟩
    | cons s' ss =>
      rw [Text.joinWith_cons (by simp), List.mem_append, List.mem_append] at h
      rcases h with (first | slash) | later
      · exact .inr ⟨s, List.mem_cons_self, first⟩
      · exact .inl (List.mem_singleton.mp slash)
      · exact (ih later).imp id fun ⟨s', mem, hc⟩ => ⟨s', List.mem_cons_of_mem s mem, hc⟩

/-- Apart from slashes and dots, the characters of a path are those of its moves. -/
theorem mem_chars_cases {c : Char} (h : c ∈ p.chars) :
    c = '/' ∨ c = '.' ∨ ∃ s ∈ p.moves, c ∈ s := by
  rw [← Text.joinWith_pieces '/' p.chars] at h
  rcases mem_joinWith h with slash | ⟨s, mem, hc⟩
  · exact .inl slash
  · by_cases empty : s = []
    · rw [empty] at hc
      cases hc
    · by_cases dot : s = ['.']
      · exact .inr (.inl (List.mem_singleton.mp (dot ▸ hc)))
      · exact .inr (.inr ⟨s, List.mem_filter.mpr ⟨mem, decide_eq_true ⟨empty, dot⟩⟩, hc⟩)

/-! ## Components -/

/-- The component that a move stands for. -/
def componentOf (s : List Char) : Component :=
  if s = ['.', '.'] then .parent else .name (.ofList s)

theorem text_componentOf (s : List Char) : (componentOf s).text.toList = s := by
  unfold componentOf
  split
  · next up => exact up.symm
  · simp [Component.text]

theorem componentOf?_eq (s : List Char) :
    componentOf? s = if leads s then some (componentOf s) else none := by
  unfold componentOf?
  split
  · rfl
  · rfl
  · rfl
  · next empty dot up =>
    have moving : leads s = true := decide_eq_true ⟨empty, dot⟩
    rw [if_pos moving, componentOf, if_neg up]

theorem filterMap_componentOf? (ss : List (List Char)) :
    ss.filterMap componentOf? = (ss.filter leads).map componentOf := by
  induction ss with
  | nil => rfl
  | cons s ss ih =>
    rw [List.filterMap_cons, componentOf?_eq, ih]
    by_cases moving : leads s = true
    · rw [if_pos moving, List.filter_cons_of_pos moving, List.map_cons]
    · rw [if_neg moving, List.filter_cons_of_neg moving]

theorem readSegments_of_isAbsolute (h : p.isAbsolute = true) :
    p.readSegments = p.segments.map fun s => (s, componentOf? s) := by
  rw [readSegments, h]

/-- The components of a path are the root, if it starts there, a `.` that it may start with, and its
moves. -/
theorem components_eq (p : Path) : ∃ start : List Component,
    (∀ c ∈ start, c = .current ∧ p.isAbsolute = false) ∧
      p.components =
        (if p.isAbsolute then [.root] else []) ++ start ++ p.moves.map componentOf := by
  have moves := filterMap_componentOf? p.segments
  rw [← moves_eq_segments] at moves
  cases absolute : p.isAbsolute with
  | true =>
    refine ⟨[], by simp, ?_⟩
    rw [components, readSegments_of_isAbsolute absolute, List.filterMap_map, ← moves, absolute]
    rfl
  | false =>
    rw [components, readSegments, absolute]
    cases hs : p.segments with
    | nil => exact ⟨[], by simp, by simp [← moves, hs]⟩
    | cons s ss =>
      have later : List.filterMap (·.2) (ss.map fun s => (s, componentOf? s)) =
          ss.filterMap componentOf? := by
        rw [List.filterMap_map]
        rfl
      rw [hs, List.filterMap_cons] at moves
      rw [List.filterMap_cons, later]
      -- a single dot counts as a step only at the start
      by_cases dot : s = ['.']
      · subst dot
        exact ⟨[.current], by simp, by simpa [componentOf?, firstComponentOf?] using moves⟩
      · have first : firstComponentOf? s = componentOf? s := by
          unfold firstComponentOf?
          split
          · exact absurd rfl dot
          · rfl
        exact ⟨[], by simp, by simpa [first] using moves⟩

theorem filter_components (p : Path) :
    p.components.filter (· ≠ .current) =
      (if p.isAbsolute then [.root] else []) ++ p.moves.map componentOf := by
  obtain ⟨start, current, components⟩ := components_eq p
  have none : start.filter (· ≠ .current) = [] :=
    List.filter_eq_nil_iff.mpr fun c mem => by simp [(current c mem).1]
  have moves : (p.moves.map componentOf).filter (· ≠ .current) = p.moves.map componentOf := by
    refine List.filter_eq_self.mpr fun c mem => ?_
    obtain ⟨s, _, rfl⟩ := List.mem_map.mp mem
    unfold componentOf
    split <;> rfl
  rw [components, List.filter_append, List.filter_append, none, moves, List.append_nil]
  split <;> rfl

theorem components_of_isAbsolute (h : p.isAbsolute = true) :
    p.components = .root :: p.moves.map componentOf := by
  obtain ⟨start, current, components⟩ := components_eq p
  obtain rfl : start = [] := List.eq_nil_iff_forall_not_mem.mpr fun c mem => by
    simp [h] at current
    exact current c mem
  rw [components, h, if_pos rfl]
  rfl

/-- The file name of an absolute path is its last move, if that is a name. -/
theorem fileName?_of_isAbsolute (h : p.isAbsolute = true) :
    p.fileName? = p.moves.getLast?.bind fun s => (componentOf s).name? := by
  rw [fileName?, components_of_isAbsolute h, List.getLast?_cons, List.getLast?_map]
  cases p.moves.getLast? with
  | none => rfl
  | some s =>
    simp only [Option.map_some, Option.getD_some, Option.bind_some]
    cases componentOf s <;> rfl

/-! ## Parents -/

theorem filter_dropWhile (ss : List (List Char)) :
    (ss.dropWhile fun s => !leads s).filter leads = ss.filter leads := by
  induction ss with
  | nil => rfl
  | cons s ss ih =>
    by_cases moving : leads s = true
    · simp [moving]
    · simp [moving, ih]

/-- The segments from the first move on. -/
theorem dropWhile_cases (ss : List (List Char)) :
    (ss.dropWhile fun s => !leads s) = [] ∧ ss.filter leads = [] ∨
      ∃ s rest, (ss.dropWhile fun s => !leads s) = s :: rest ∧
        ss.filter leads = s :: rest.filter leads := by
  have filtered := filter_dropWhile ss
  cases hd : ss.dropWhile fun s => !leads s with
  | nil => exact .inl ⟨rfl, by simpa [hd] using filtered.symm⟩
  | cons s rest =>
    have moving : leads s = true := by
      have := List.head_dropWhile_not (fun s => !leads s) (l := ss) (by simp [hd])
      simpa [hd] using this
    refine .inr ⟨s, rest, rfl, ?_⟩
    rw [← filtered, hd, List.filter_cons_of_pos moving]

theorem dropWhile_readSegments (ss : List (List Char)) :
    (ss.map fun s => (s, componentOf? s)).dropWhile (·.2.isNone) =
      (ss.dropWhile fun s => !leads s).map fun s => (s, componentOf? s) := by
  rw [List.dropWhile_map]
  congr 2
  funext s
  simp only [Function.comp_apply, componentOf?_eq]
  cases leads s <;> rfl

/-- The parent of an absolute path has all its moves but the last. -/
theorem parent?_of_isAbsolute (h : p.isAbsolute = true) :
    p.parent? = none ∧ p.moves = [] ∨
      ∃ q s, p.parent? = some q ∧ q.isAbsolute = true ∧ p.moves = q.moves ++ [s] := by
  -- the parent is found from the back, so the moves are read in reverse
  have mirrored : p.moves = (p.segments.reverse.filter leads).reverse := by
    rw [List.filter_reverse, List.reverse_reverse, moves_eq_segments]
  have plain : ∀ s ∈ p.segments, '/' ∉ s := fun s mem slash =>
    (Text.mem_of_mem_pieces mem slash).2 rfl
  rw [parent?, readSegments_of_isAbsolute h, ← List.map_reverse, dropWhile_readSegments, mirrored]
  rcases dropWhile_cases p.segments.reverse with ⟨dropped, moves⟩ | ⟨s, rest, dropped, moves⟩
  · exact .inl ⟨by rw [dropped]; rfl, by rw [moves]; rfl⟩
  · refine .inr ⟨ofSegments true (rest.dropWhile fun s => !leads s).reverse, s, ?_, ?_, ?_⟩
    · rw [dropped, List.map_cons, h]
      simp only [dropWhile_readSegments, ← List.map_reverse, List.map_map, Function.comp_def,
        List.map_id']
    · simp [isAbsolute, ofSegments]
    · have kept : ∀ s ∈ (rest.dropWhile fun s => !leads s).reverse, '/' ∉ s := fun s' mem => by
        have tail : s' ∈ s :: rest :=
          List.mem_cons_of_mem s ((List.dropWhile_suffix _).subset (List.mem_reverse.mp mem))
        rw [← dropped] at tail
        exact plain s' (List.mem_reverse.mp ((List.dropWhile_suffix _).subset tail))
      rw [moves, moves_ofSegments kept, List.filter_reverse, filter_dropWhile, List.reverse_cons]

/-! ## Absolute paths -/

theorem isAbsolute_join {r : String} (relative : (Path.mk r).isAbsolute = false) (q : Path) :
    (q.join r).isAbsolute = q.isAbsolute := by
  rw [join, if_neg (by simp [relative])]
  cases text : q.text.toList with
  | nil =>
    have empty : q.isAbsolute = false := by simp [isAbsolute, chars, text]
    have joined : q.text ++ r = r := by simp [← String.toList_inj, text]
    rw [if_pos (by simp [chars, text]), joined, relative, empty]
  | cons c cs => split <;> simp [isAbsolute, chars, text]

theorem moves_foldl_join (h : q.isAbsolute = true)
    (plain : ∀ s ∈ ss, leads s = true ∧ '/' ∉ s) :
    ((ss.map componentOf).foldl (fun q c => q.join c.text) q).isAbsolute = true ∧
      ((ss.map componentOf).foldl (fun q c => q.join c.text) q).moves = q.moves ++ ss := by
  induction ss generalizing q with
  | nil => simpa using h
  | cons s ss ih =>
    obtain ⟨⟨moving, slashless⟩, later⟩ := List.forall_mem_cons.mp plain
    have chars : (Path.mk (componentOf s).text).chars = s := text_componentOf s
    have relative : (Path.mk (componentOf s).text).isAbsolute = false := by
      rw [isAbsolute, chars]
      exact decide_eq_false fun first => slashless (List.mem_of_head? first)
    have moves : (Path.mk (componentOf s).text).moves = [s] := by
      simp [Path.moves, chars, Text.pieces_of_not_mem slashless, moving]
    obtain ⟨absolute, joined⟩ := ih ((isAbsolute_join relative q).trans h) later
    refine ⟨absolute, ?_⟩
    rw [List.map_cons, List.foldl_cons, joined, moves_join relative, moves, List.append_assoc,
      List.singleton_append]

/-- Making a path absolute puts the moves of the base in front of those of a relative path. -/
theorem moves_absoluteFrom {base : Path} (h : base.isAbsolute = true) (p : Path) :
    (absoluteFrom base p).isAbsolute = true ∧
      (absoluteFrom base p).moves = (if p.isAbsolute then [] else base.moves) ++ p.moves := by
  have plain : ∀ s ∈ p.moves, leads s = true ∧ '/' ∉ s := fun s mem =>
    ⟨leads_of_mem_moves mem, fun slash => (mem_of_mem_moves mem slash).2 rfl⟩
  -- a slash kept at the end adds no move
  have closed {q : Path} {ms : List (List Char)} (hq : q.isAbsolute = true ∧ q.moves = ms) :
      (if p.chars.getLast? = some '/' then q.join "" else q).isAbsolute = true ∧
        (if p.chars.getLast? = some '/' then q.join "" else q).moves = ms := by
    have empty : (Path.mk "").isAbsolute = false := rfl
    split
    · exact ⟨(isAbsolute_join empty q).trans hq.1, by rw [moves_join empty, hq.2]; exact List.append_nil _⟩
    · exact hq
  rw [absoluteFrom]
  refine closed ?_
  rw [filter_components]
  cases absolute : p.isAbsolute with
  | false => simpa using moves_foldl_join h plain
  | true =>
    simp only [if_true]
    split
    · have slashes : (Path.mk "//").isAbsolute = true := rfl
      simpa [show (Path.mk "//").moves = [] from rfl] using moves_foldl_join slashes plain
    · refine ⟨by simp [ofComponents, ofSegments, isAbsolute], ?_⟩
      have texts : (p.moves.map componentOf).map (·.text.toList) = p.moves := by
        simp [Function.comp_def, text_componentOf]
      rw [List.singleton_append, ofComponents, texts,
        moves_ofSegments fun s mem => (plain s mem).2]
      exact List.filter_eq_self.mpr fun s mem => (plain s mem).1

end DirectiveRunner.Path
