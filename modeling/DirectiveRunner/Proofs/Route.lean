import DirectiveRunner.Cache.Cache
import DirectiveRunner.Proofs.Crc32
import DirectiveRunner.Proofs.Spelling
/-!
# Where paths lead

There are no links, so the location that a path leads to can be read off its moves: this is its
`place`, whatever the tree holds. Walking a path asks more of the tree, namely that it stands in
directories on the way.

* `foldlM_step_eq_ok` — a walk ends where its segments lead.
* `arrives_filter` — reaching a directory depends on the moves only.
* `keyOf_of_named` — a file is remembered under the path of its place, whether it exists or not, if its
  directory does.
* `Named.ofFile_pathOf` — what is seen under that name is what is at the place: the CRC-32 of a file, or
  that there is none.
-/

namespace DirectiveRunner.FileTree

open DirectiveRunner.Path (leads)

variable {t t' : FileTree} {l l' d n : Location} {p : Path} {s : List Char} {ss : List (List Char)}

/-! ## Places -/

/-- The location that a segment leads to from another. -/
def enter (l : Location) (s : List Char) : Location :=
  if s = ['.', '.'] then l.dropLast else if leads s then l ++ [.ofList s] else l

/-- The location that segments lead to from the root. -/
def follow (ss : List (List Char)) : Location := ss.foldl enter []

/-- The moves of a path from the root. -/
def moves (t : FileTree) (p : Path) : List (List Char) :=
  (if p.isAbsolute then [] else t.base.moves) ++ p.moves

/-- The location that a path leads to, whether there is anything or not. -/
def place (t : FileTree) (p : Path) : Location := follow (t.moves p)

theorem enter_of_not_leads (h : ¬leads s = true) (l : Location) : enter l s = l := by
  have up : s ≠ ['.', '.'] := fun up => h (up ▸ rfl)
  rw [enter, if_neg up, if_neg h]

theorem foldl_enter_filter (ss : List (List Char)) (l : Location) :
    (ss.filter leads).foldl enter l = ss.foldl enter l := by
  induction ss generalizing l with
  | nil => rfl
  | cons s ss ih =>
    by_cases moving : leads s = true
    · rw [List.filter_cons_of_pos moving, List.foldl_cons, List.foldl_cons, ih]
    · rw [List.filter_cons_of_neg moving, List.foldl_cons, enter_of_not_leads moving, ih]

theorem follow_filter (ss : List (List Char)) : follow (ss.filter leads) = follow ss :=
  foldl_enter_filter ss []

theorem follow_concat (ss : List (List Char)) (s : List Char) :
    follow (ss ++ [s]) = enter (follow ss) s := by
  rw [follow, List.foldl_append]
  rfl

theorem moves_of_isAbsolute (h : p.isAbsolute = true) : t.moves p = p.moves := by
  rw [moves, h, if_pos rfl, List.nil_append]

/-- The moves depend on the current directory only. -/
theorem moves_of_current (h : t'.current = t.current) (p : Path) : t'.moves p = t.moves p := by
  rw [moves, moves, base, base, h]

theorem filter_route (t : FileTree) (p : Path) : (t.route p).filter leads = t.moves p := by
  rw [route, moves, p.moves_eq_segments, t.base.moves_eq_segments]
  split
  · rfl
  · rw [List.filter_append]

theorem follow_route (t : FileTree) (p : Path) : follow (t.route p) = t.place p := by
  rw [← follow_filter, filter_route, place]

/-- Whatever lies above the end of a way is passed on the way, or lies above its start. -/
theorem prefix_foldl_enter (h : n <+: ss.foldl enter l) :
    n <+: l ∨ ∃ ms, ms <+: ss ∧ ms.foldl enter l = n := by
  induction ss generalizing l with
  | nil => exact .inl h
  | cons s ss ih =>
    rcases ih h with above | ⟨ms, start, rfl⟩
    · unfold enter at above
      split at above
      · exact .inl (above.trans l.dropLast_prefix)
      · split at above
        · next up moving =>
          rcases List.prefix_concat_iff.mp above with rfl | above
          · refine .inr ⟨[s], List.prefix_append [s] ss, ?_⟩
            rw [List.foldl_cons, enter, if_neg up, if_pos moving, List.foldl_nil]
          · exact .inl above
        · exact .inl above
    · exact .inr ⟨s :: ms, List.cons_prefix_cons.mpr ⟨rfl, start⟩, rfl⟩

theorem prefix_follow (h : n <+: follow ss) : ∃ ms, ms <+: ss ∧ follow ms = n := by
  rcases prefix_foldl_enter h with above | passed
  · exact ⟨[], List.nil_prefix, (List.prefix_nil.mp above).symm⟩
  · exact passed

/-! ## Proper names -/

/-- A name that leads from every directory to a place of its own. -/
structure Proper (n : String) : Prop where
  leads : leads n.toList = true
  /-- It does not lead to the directory above. -/
  forward : n.toList ≠ ['.', '.']
  slashless : '/' ∉ n.toList

theorem Proper.enter {n : String} (h : Proper n) (l : Location) : enter l n.toList = l ++ [n] := by
  rw [FileTree.enter, if_neg h.forward, if_pos h.leads, String.ofList_toList]

theorem mem_foldl_enter {n : String} (h : n ∈ ss.foldl enter l) :
    n ∈ l ∨ n.toList ∈ ss ∧ leads n.toList = true ∧ n.toList ≠ ['.', '.'] := by
  induction ss generalizing l with
  | nil => exact .inl h
  | cons s ss ih =>
    rcases ih h with start | ⟨later, name⟩
    · unfold enter at start
      split at start
      · exact .inl (l.dropLast_subset start)
      · split at start
        · next up moving =>
          rcases List.mem_append.mp start with old | new
          · exact .inl old
          · obtain rfl := List.mem_singleton.mp new
            rw [String.toList_ofList]
            exact .inr ⟨List.mem_cons_self, moving, up⟩
        · exact .inl start
    · exact .inr ⟨List.mem_cons_of_mem s later, name⟩

theorem slashless_of_mem_moves (h : s ∈ t.moves p) : '/' ∉ s := by
  intro slash
  rcases List.mem_append.mp h with base | own
  · split at base
    · cases base
    · exact (Path.mem_of_mem_moves base slash).2 rfl
  · exact (Path.mem_of_mem_moves own slash).2 rfl

theorem leads_of_mem_moves (h : s ∈ t.moves p) : leads s = true := by
  rw [← filter_route] at h
  exact (List.mem_filter.mp h).2

/-- The names on the way to a place are moves of the path. -/
theorem mem_place {n : String} (h : n ∈ t.place p) : n.toList ∈ t.moves p ∧ Proper n := by
  rcases mem_foldl_enter h with none | ⟨mem, moving, forward⟩
  · cases none
  · exact ⟨mem, moving, forward, slashless_of_mem_moves mem⟩

/-! ## Paths of locations -/

theorem pathOf_eq (l : Location) : pathOf l = .ofSegments true (l.map String.toList) := by
  simp [pathOf, Path.ofComponents, Function.comp_def, Path.Component.text]

theorem chars_pathOf (l : Location) :
    (pathOf l).chars = '/' :: Text.joinWith ['/'] (l.map String.toList) := by
  simp [pathOf_eq, Path.ofSegments]

theorem mem_chars_pathOf {c : Char} (h : c ∈ (pathOf l).chars) :
    c = '/' ∨ ∃ n ∈ l, c ∈ n.toList := by
  rw [chars_pathOf] at h
  rcases List.mem_cons.mp h with slash | h
  · exact .inl slash
  · refine (Path.mem_joinWith h).imp id fun ⟨s, mem, hc⟩ => ?_
    obtain ⟨n, name, rfl⟩ := List.mem_map.mp mem
    exact ⟨n, name, hc⟩

theorem isAbsolute_pathOf (l : Location) : (pathOf l).isAbsolute = true := by
  simp [Path.isAbsolute, chars_pathOf]

theorem moves_pathOf (proper : ∀ n ∈ l, Proper n) : (pathOf l).moves = l.map String.toList := by
  rw [pathOf_eq, Path.moves_ofSegments]
  · refine List.filter_eq_self.mpr fun s mem => ?_
    obtain ⟨n, name, rfl⟩ := List.mem_map.mp mem
    exact (proper n name).leads
  · intro s mem
    obtain ⟨n, name, rfl⟩ := List.mem_map.mp mem
    exact (proper n name).slashless

theorem foldl_enter_map (proper : ∀ n ∈ l', Proper n) :
    (l'.map String.toList).foldl enter l = l ++ l' := by
  induction l' generalizing l with
  | nil => simp
  | cons n l' ih =>
    obtain ⟨first, later⟩ := List.forall_mem_cons.mp proper
    rw [List.map_cons, List.foldl_cons, first.enter, ih later, List.append_assoc,
      List.singleton_append]

theorem follow_map (proper : ∀ n ∈ l, Proper n) : follow (l.map String.toList) = l :=
  foldl_enter_map proper

theorem segments_pathOf (proper : ∀ n ∈ l, Proper n) (h : l ≠ []) :
    (pathOf l).segments = l.map String.toList := by
  rw [Path.segments, if_pos (isAbsolute_pathOf l), chars_pathOf, List.drop_succ_cons,
    List.drop_zero]
  refine Text.pieces_joinWith (fun s mem => ?_) (by simpa using h)
  obtain ⟨n, name, rfl⟩ := List.mem_map.mp mem
  exact (proper n name).slashless

/-- Apart from slashes, the characters of a path are those of the names. -/
theorem mem_chars_pathOf_iff (proper : ∀ n ∈ l, Proper n) {c : Char} (other : c ≠ '/') :
    c ∈ (pathOf l).chars ↔ ∃ n ∈ l, c ∈ n.toList := by
  refine ⟨fun h => (mem_chars_pathOf h).resolve_left other, fun ⟨n, mem, hc⟩ => ?_⟩
  have move : n.toList ∈ (pathOf l).moves := moves_pathOf proper ▸ List.mem_map_of_mem mem
  exact (Path.mem_of_mem_moves move hc).1

/-- Locations of proper names have different paths. -/
theorem components_pathOf (proper : ∀ n ∈ l, Proper n) :
    (pathOf l).components = .root :: l.map .name := by
  rw [Path.components_of_isAbsolute (isAbsolute_pathOf l), moves_pathOf proper, List.map_map]
  congr 1
  refine List.map_congr_left fun n mem => ?_
  rw [Function.comp_apply, Path.componentOf, if_neg (proper n mem).forward, String.ofList_toList]

/-- The path of a location below a directory. -/
theorem pathOf_join (proper : ∀ n ∈ d, Proper n) {name : String} (slashless : '/' ∉ name.toList) :
    (pathOf d).join name = pathOf (d ++ [name]) := by
  have relative : (Path.mk name).isAbsolute = false :=
    decide_eq_false fun first => slashless (List.mem_of_head? first)
  refine Path.eq_of_chars_eq ?_
  cases d with
  | nil =>
    have root : pathOf [] = ⟨"/"⟩ := rfl
    have written : (pathOf [name]).chars = '/' :: name.toList := chars_pathOf [name]
    rw [List.nil_append, written, root, Path.join, if_neg (by simp [relative]), if_pos (by rfl)]
    simp [Path.chars]
  | cons n d =>
    have unclosed : (pathOf (n :: d)).chars.getLast? ≠ some '/' := fun slash => by
      have empty := Path.nil_mem_segments slash
      rw [segments_pathOf proper (by simp)] at empty
      obtain ⟨n', mem, nothing⟩ := List.mem_map.mp empty
      exact absurd (nothing ▸ (proper n' mem).leads) (by decide)
    have written : (pathOf (n :: d ++ [name])).chars =
        (pathOf (n :: d)).chars ++ '/' :: name.toList := by
      rw [chars_pathOf, chars_pathOf, List.map_append, List.map_singleton,
        Text.joinWith_concat (by simp), List.append_assoc, List.singleton_append]
      rfl
    have nonempty : (pathOf (n :: d)).chars ≠ [] := by simp [chars_pathOf]
    rw [written, Path.join, if_neg (by simp [relative]), if_neg (by simp [nonempty, unclosed])]
    simp [Path.chars]

/-! ## Walking -/

theorem step_of_directory (h : t.node? l = some .directory) (s : List Char) :
    t.step l s =
      if nameLimit < Text.byteLength s then .error .nameTooLong else .ok (enter l s) := by
  unfold step
  rw [h]
  dsimp only
  split
  · rfl
  · rfl
  · rfl
  · next empty dot up =>
    have moving : leads s = true := decide_eq_true ⟨empty, dot⟩
    rw [enter, if_neg up, if_pos moving]

theorem step_eq_ok : t.step l s = .ok l' ↔
    t.node? l = some .directory ∧ Text.byteLength s ≤ nameLimit ∧ enter l s = l' := by
  by_cases h : t.node? l = some .directory
  · rw [step_of_directory h]
    split
    · next long => simp [h, Nat.not_le.mpr long]
    · next short => simp [h, Nat.not_lt.mp short]
  · have stuck : ∀ l'', t.step l s ≠ .ok l'' := fun l'' stepped => by
      unfold step at stepped
      split at stepped
      · cases stepped
      · cases stepped
      · next directory => exact h directory
    simp [h, stuck]

/-- A walk ends where its segments lead. -/
theorem foldlM_step_eq_ok (h : ss.foldlM t.step l = .ok l') : ss.foldl enter l = l' := by
  induction ss generalizing l with
  | nil => exact Except.ok.inj h
  | cons s ss ih =>
    rw [List.foldlM_cons] at h
    cases stepped : t.step l s with
    | error e => rw [stepped] at h; cases h
    | ok next =>
      rw [stepped] at h
      rw [List.foldl_cons, (step_eq_ok.mp stepped).2.2]
      exact ih h

/-- Segments walked one after the other lead to a directory. -/
def Arrives (t : FileTree) (l : Location) (ss : List (List Char)) : Prop :=
  ∃ d, ss.foldlM t.step l = .ok d ∧ t.node? d = some .directory

theorem arrives_nil : t.Arrives l [] ↔ t.node? l = some .directory := by
  simp [Arrives, pure, Except.pure]

theorem arrives_cons : t.Arrives l (s :: ss) ↔
    t.node? l = some .directory ∧ Text.byteLength s ≤ nameLimit ∧ t.Arrives (enter l s) ss := by
  unfold Arrives
  rw [List.foldlM_cons]
  cases stepped : t.step l s with
  | error e =>
    have stuck : ¬(t.node? l = some .directory ∧ Text.byteLength s ≤ nameLimit) := fun h => by
      rw [step_eq_ok.mpr ⟨h.1, h.2, rfl⟩] at stepped
      cases stepped
    simpa [bind, Except.bind] using fun directory short => absurd ⟨directory, short⟩ stuck
  | ok next =>
    obtain ⟨directory, short, rfl⟩ := step_eq_ok.mp stepped
    simp [bind, Except.bind, directory, short]

theorem Arrives.start (h : t.Arrives l ss) : t.node? l = some .directory := by
  cases ss with
  | nil => exact arrives_nil.mp h
  | cons s ss => exact (arrives_cons.mp h).1

/-- Reaching a directory depends on the moves only. -/
theorem arrives_filter : t.Arrives l (ss.filter leads) ↔ t.Arrives l ss := by
  induction ss generalizing l with
  | nil => rfl
  | cons s ss ih =>
    by_cases moving : leads s = true
    · rw [List.filter_cons_of_pos moving, arrives_cons, arrives_cons, ih]
    · have short : Text.byteLength s ≤ nameLimit := by
        by_cases empty : s = []
        · exact empty ▸ Nat.zero_le _
        · have dot : s = ['.'] := by simpa [leads, empty] using moving
          exact dot ▸ (by decide)
      rw [List.filter_cons_of_neg moving, arrives_cons, enter_of_not_leads moving, ih]
      exact ⟨fun h => ⟨h.start, short, h⟩, fun h => h.2.2⟩

/-! ## Standing -/

/-- A location that is a directory, as all locations above it are. -/
def Standing (t : FileTree) (l : Location) : Prop := ∀ n, n <+: l → t.node? n = some .directory

theorem Standing.nil : t.Standing [] := fun n above => by
  rw [List.prefix_nil.mp above]
  rfl

theorem Standing.mono (h : t.Standing l) (above : l' <+: l) : t.Standing l' :=
  fun n mem => h n (mem.trans above)

theorem Standing.directory (h : t.Standing l) : t.node? l = some .directory :=
  h l (List.prefix_refl l)

theorem Standing.of_dropLast (h : t.Standing l.dropLast) (directory : t.node? l = some .directory) :
    t.Standing l := by
  intro n above
  rcases List.eq_nil_or_concat l with rfl | ⟨d, name, rfl⟩
  · exact Standing.nil n above
  · rw [List.concat_eq_append] at *
    rw [List.dropLast_concat] at h
    rcases List.prefix_concat_iff.mp above with rfl | above
    · exact directory
    · exact h n above

/-- A step goes from a directory below directories to a location below directories. -/
theorem Standing.step (h : t.Standing l.dropLast) (stepped : t.step l s = .ok l') :
    t.Standing l ∧ t.Standing l'.dropLast := by
  obtain ⟨directory, -, rfl⟩ := step_eq_ok.mp stepped
  have standing := h.of_dropLast directory
  refine ⟨standing, ?_⟩
  unfold enter
  split
  · exact h.mono (List.dropLast_prefix _)
  · split
    · rwa [List.dropLast_concat]
    · exact h

/-- A walk is the same in a tree that keeps the directories. -/
theorem Standing.walk (h : t.Standing l.dropLast)
    (kept : ∀ d, t.Standing d → t'.node? d = some .directory)
    (walked : ss.foldlM t.step l = .ok l') :
    t.Standing l'.dropLast ∧ ss.foldlM t'.step l = .ok l' := by
  induction ss generalizing l with
  | nil =>
    obtain rfl := Except.ok.inj walked
    exact ⟨h, rfl⟩
  | cons s ss ih =>
    rw [List.foldlM_cons] at walked ⊢
    cases stepped : t.step l s with
    | error e => rw [stepped] at walked; cases walked
    | ok next =>
      rw [stepped] at walked
      obtain ⟨standing, below⟩ := h.step stepped
      have stepped' : t'.step l s = .ok next :=
        step_eq_ok.mpr ⟨kept l standing, (step_eq_ok.mp stepped).2⟩
      rw [stepped']
      exact ih below walked

theorem Arrives.standing (h : t.Arrives [] ss) : t.Standing (follow ss) := by
  obtain ⟨d, walked, directory⟩ := h
  have below := (Standing.nil (t := t)).walk (fun d standing => standing.directory) walked
  rw [follow, foldlM_step_eq_ok walked]
  exact below.1.of_dropLast directory

/-- Names are walked one by one. -/
theorem Standing.names {n : Location} (h : t.Standing (n ++ l))
    (named : ∀ name ∈ l, Proper name ∧ Text.byteLength name.toList ≤ nameLimit) :
    (l.map String.toList).foldlM t.step n = .ok (n ++ l) := by
  induction l generalizing n with
  | nil => rw [List.append_nil]; rfl
  | cons name l ih =>
    obtain ⟨⟨proper, short⟩, later⟩ := List.forall_mem_cons.mp named
    have stepped : t.step n name.toList = .ok (n ++ [name]) :=
      step_eq_ok.mpr ⟨h n (List.prefix_append _ _), short, proper.enter n⟩
    have split : n ++ name :: l = n ++ [name] ++ l := by simp
    rw [List.map_cons, List.foldlM_cons, stepped, split]
    exact ih (split ▸ h) later

/-! ## Finding -/

theorem locate_eq_ok : t.locate p = .ok l ↔
    p.chars ≠ [] ∧ '\x00' ∉ p.chars ∧ (t.route p).foldlM t.step [] = .ok l := by
  unfold locate
  split
  · next empty => simp [List.isEmpty_iff.mp empty]
  · next nonempty =>
    split
    · next nul => simp [nul]
    · next plain => simp [plain, show p.chars ≠ [] by simpa using nonempty]

/-- The path of a location leads to it. -/
theorem place_of_locate (h : t.locate p = .ok l) : t.place p = l := by
  rw [← follow_route]
  exact foldlM_step_eq_ok (locate_eq_ok.mp h).2.2

theorem find_eq_ok {node : FileNode} :
    t.find p = .ok (l, node) ↔ t.locate p = .ok l ∧ t.node? l = some node := by
  unfold find
  cases located : t.locate p with
  | error e => simp [bind, Except.bind]
  | ok l' =>
    cases found : t.node? l' with
    | none =>
      have missing : l' = l → ¬t.node? l = some node := fun same => by simp [← same, found]
      simpa [bind, Except.bind, found] using missing
    | some node' =>
      simp only [bind, Except.bind, found, Except.ok.injEq, Prod.mk.injEq]
      exact ⟨fun ⟨same, node⟩ => ⟨same, same ▸ node ▸ found⟩, fun ⟨same, node⟩ =>
        ⟨same, Option.some.inj (found.symm.trans (same ▸ node))⟩⟩

theorem find_of_locate_error {e : FileFailure} (h : t.locate p = .error e) :
    t.find p = .error e := by
  rw [find, h]
  rfl

/-- A proper name joined to a path leads to that name in the place of the path. -/
theorem place_join {n : String} (h : Proper n) (t : FileTree) (p : Path) :
    t.place (p.join n) = t.place p ++ [n] := by
  have relative : (Path.mk n).isAbsolute = false :=
    decide_eq_false fun first => h.slashless (List.mem_of_head? first)
  have single : (Path.mk n).moves = [n.toList] := by
    simp [Path.moves, Path.chars, Text.pieces_of_not_mem h.slashless, h.leads]
  have moves : t.moves (p.join n) = t.moves p ++ [n.toList] := by
    rw [FileTree.moves, FileTree.moves, Path.isAbsolute_join relative, Path.moves_join relative,
      single, List.append_assoc]
  rw [place, moves, follow_concat, h.enter, ← place]

/-- What is found at a path lies in a directory. -/
theorem directory_of_locate {name : String} (h : t.locate p = .ok (l ++ [name])) :
    t.node? l = some .directory := by
  have walked := (locate_eq_ok.mp h).2.2
  have above := ((Standing.nil (t := t)).walk (fun d standing => standing.directory) walked).1
  rw [List.dropLast_concat] at above
  exact above.directory

theorem read_of_locate (h : t.locate p = .ok l) : t.read p =
    match t.node? l with
    | none => .error .notFound
    | some (.file bytes) => .ok bytes
    | some .directory => .error .isDirectory := by
  rw [FileTree.read, find, h]
  cases found : t.node? l with
  | none => simp [bind, Except.bind, found]
  | some node => cases node <;> simp [bind, Except.bind, found]

theorem readText_put {text : String} (h : l ≠ [])
    (located : (t.put l (.file (Text.Utf8.encode text))).locate p = .ok l) :
    (t.put l (.file (Text.Utf8.encode text))).readText p = .ok text := by
  rw [readText, read_of_locate located, node?_put_self h]
  simp [bind, Except.bind, Text.Utf8.decode?_encode]

theorem canonical_eq_ok {c : Path} (h : t.canonical p = .ok c) : c = pathOf (t.place p) := by
  unfold canonical at h
  cases found : t.find p with
  | error e => rw [found] at h; cases h
  | ok entry =>
    rw [found] at h
    rw [place_of_locate (find_eq_ok.mp found).1]
    exact (Except.ok.inj h).symm

/-- A directory that is reached by the moves of an absolute path is found there. -/
theorem canonical_of_arrives (absolute : p.isAbsolute = true) (plain : ∀ s ∈ p.moves, '\x00' ∉ s)
    (h : t.Arrives [] p.moves) : t.canonical p = .ok (pathOf (t.place p)) := by
  have route : t.route p = p.segments := by rw [route, if_pos absolute]
  rw [Path.moves_eq_segments, arrives_filter, ← route] at h
  obtain ⟨d, walked, directory⟩ := h
  have nonempty : p.chars ≠ [] := by
    rw [Path.chars_eq_of_isAbsolute absolute]
    exact List.cons_ne_nil _ _
  have noNul : '\x00' ∉ p.chars := fun nul => by
    rcases Path.mem_chars_cases nul with slash | dot | ⟨s, mem, nul⟩
    · exact absurd slash (by decide)
    · exact absurd dot (by decide)
    · exact plain s mem nul
  have located : t.locate p = .ok d := locate_eq_ok.mpr ⟨nonempty, noNul, walked⟩
  rw [canonical, find_eq_ok.mpr ⟨located, directory⟩, place_of_locate located]
  rfl

/-! ## The name a file is remembered under -/

/-- A path ends in a proper name, and the directory that it stands in exists. -/
structure Named (t : FileTree) (p : Path) : Prop where
  name : ∃ s, p.moves.getLast? = some s ∧ s ≠ ['.', '.']
  /-- The moves before it lead to a directory. -/
  parent : t.Arrives [] (t.moves p).dropLast
  /-- None of them holds the character that ends a name for the system. -/
  plain : ∀ s ∈ (t.moves p).dropLast, '\x00' ∉ s

variable {ms : List (List Char)}

theorem Named.moves_eq (h : t.Named p) :
    ∃ ms s, t.moves p = ms ++ [s] ∧ s ≠ ['.', '.'] ∧ t.Arrives [] ms := by
  obtain ⟨s, last, forward⟩ := h.name
  obtain ⟨ms, split⟩ := List.getLast?_eq_some_iff.mp last
  have parent := h.parent
  rw [moves, split, ← List.append_assoc] at parent ⊢
  rw [List.dropLast_concat] at parent
  exact ⟨_, s, rfl, forward, parent⟩

theorem Named.of_split (h : t.Named p) (split : t.moves p = ms ++ [s]) :
    s ≠ ['.', '.'] ∧ t.Arrives [] ms := by
  obtain ⟨ms', s', split', forward, parent⟩ := h.moves_eq
  obtain ⟨rfl, same⟩ := List.append_inj' (split.symm.trans split') rfl
  obtain rfl := List.singleton_inj.mp same
  exact ⟨forward, parent⟩

/-- A path that ends in a name leads to that name in the place of its directory. -/
theorem place_of_forward (split : t.moves p = ms ++ [s]) (forward : s ≠ ['.', '.']) :
    t.place p = follow ms ++ [.ofList s] := by
  have moving : leads s = true := leads_of_mem_moves (t := t) (p := p) (by simp [split])
  rw [place, split, follow_concat, enter, if_neg forward, if_pos moving]

theorem absoluteFrom_base (t : FileTree) (p : Path) :
    (Path.absoluteFrom t.base p).isAbsolute = true ∧
      (Path.absoluteFrom t.base p).moves = t.moves p :=
  Path.moves_absoluteFrom (isAbsolute_pathOf t.current) p

/-- A file is remembered under the path of its place, unless the path does not end in a proper name in
a directory that exists. -/
theorem keyOf_cases (t : FileTree) (h : p.chars ≠ []) :
    Cache.keyOf t p = pathOf (t.place p) ∨
      Cache.keyOf t p = .absoluteFrom t.base p ∧ ¬t.Named p := by
  obtain ⟨absolute, moves⟩ := absoluteFrom_base t p
  have name := Path.fileName?_of_isAbsolute absolute
  unfold Cache.keyOf
  cases found : t.canonical p with
  | ok c => exact .inl (canonical_eq_ok found)
  | error e =>
    dsimp only
    rw [if_neg (by simpa using h)]
    rcases Path.parent?_of_isAbsolute absolute with ⟨parent, none⟩ | ⟨r, s, parent, upper, split⟩
    · rw [parent]
      refine .inr ⟨rfl, fun named => ?_⟩
      obtain ⟨ms, s, split, -⟩ := named.moves_eq
      simp [← moves, none] at split
    · rw [moves] at split
      rw [moves, split, List.getLast?_concat, Option.bind_some] at name
      rw [parent, name]
      -- a path that ends in `..` has no name to add to its directory
      by_cases up : s = ['.', '.']
      · rw [up, Path.componentOf, if_pos rfl]
        exact .inr ⟨rfl, fun named => (named.of_split split).1 up⟩
      · rw [Path.componentOf, if_neg up]
        dsimp only [Path.Component.name?]
        cases directory : t.canonical r with
        | ok c =>
          have slashless : '/' ∉ s := slashless_of_mem_moves (t := t) (p := p) (by simp [split])
          left
          rw [canonical_eq_ok directory, place_of_forward split up, ← moves_of_isAbsolute upper]
          exact pathOf_join (fun n mem => (mem_place mem).2) (by simpa using slashless)
        | error e' =>
          refine .inr ⟨rfl, fun named => ?_⟩
          have plain : ∀ s ∈ r.moves, '\x00' ∉ s := fun s' mem =>
            named.plain s' (by simpa [split] using mem)
          rw [canonical_of_arrives upper plain (named.of_split split).2] at directory
          cases directory

/-- The empty path names no file and is its own name. -/
theorem keyOf_of_empty (t : FileTree) (h : p.chars = []) : Cache.keyOf t p = p := by
  obtain rfl : p = .ofChars [] := Path.eq_of_chars_eq (by simpa using h)
  rfl

/-- Apart from slashes and dots, the characters of the name are those of the moves. -/
theorem mem_keyOf {c : Char} (h : c ∈ (Cache.keyOf t p).chars) :
    c = '/' ∨ c = '.' ∨ ∃ s ∈ t.moves p, c ∈ s := by
  by_cases empty : p.chars = []
  · rw [keyOf_of_empty t empty, empty] at h
    cases h
  · rcases keyOf_cases t empty with key | ⟨key, -⟩
    · rw [key] at h
      refine (mem_chars_pathOf h).imp id fun ⟨n, mem, hc⟩ => .inr ⟨n.toList, ?_, hc⟩
      exact (mem_place mem).1
    · rw [key] at h
      have chars := Path.mem_chars_cases h
      rwa [(absoluteFrom_base t p).2] at chars

theorem keyOf_of_named (h : t.Named p) : Cache.keyOf t p = pathOf (t.place p) := by
  have nonempty : p.chars ≠ [] := fun empty => by
    obtain ⟨s, last, -⟩ := h.name
    rw [Path.moves, empty] at last
    cases last
  rcases keyOf_cases t nonempty with key | ⟨-, unnamed⟩
  · exact key
  · exact absurd h unnamed

/-! ## What is seen of a file -/

/-- Why no file can have a name. -/
def refused? (name : String) : Option FileFailure :=
  if '\x00' ∈ name.toList then some .nulInPath
  else if nameLimit < Text.byteLength name.toList then some .nameTooLong
  else none

theorem refused?_eq_none {name : String} : refused? name = none ↔
    '\x00' ∉ name.toList ∧ Text.byteLength name.toList ≤ nameLimit := by
  unfold refused?
  split
  · next nul => simp [nul]
  · next plain =>
    split
    · next long => simp [Nat.not_le.mpr long]
    · next short => simp [plain, Nat.not_lt.mp short]

theorem refused?_cases {name : String} {e : FileFailure} (h : refused? name = some e) :
    e = .nulInPath ∨ e = .nameTooLong := by
  unfold refused? at h
  split at h
  · exact .inl (Option.some.inj h).symm
  · split at h
    · exact .inr (Option.some.inj h).symm
    · cases h

/-- What is seen at a location in a directory: that there is no file, or the CRC-32 of its contents. -/
noncomputable def seenAt (t : FileTree) (l : Location) : Except FileFailure Observation :=
  match l.getLast?.bind refused? with
  | some e => .error e
  | none =>
    match t.node? l with
    | none => .ok .absent
    | some (.file bytes) => .ok (.present (crc32 bytes.data.toList))
    | some .directory => .error .isDirectory

theorem Arrives.short (h : t.Arrives l ss) (mem : s ∈ ss) : Text.byteLength s ≤ nameLimit := by
  induction ss generalizing l with
  | nil => cases mem
  | cons s' ss ih =>
    obtain ⟨-, short, later⟩ := arrives_cons.mp h
    rcases List.mem_cons.mp mem with rfl | mem
    · exact short
    · exact ih later mem

/-- The place of a named path is a name in a directory that stands. -/
theorem Named.place_eq (h : t.Named p) : ∃ d name, t.place p = d ++ [name] ∧ t.Standing d ∧
    ∀ n ∈ d, refused? n = none := by
  obtain ⟨ms, s, split, forward, parent⟩ := h.moves_eq
  refine ⟨follow ms, .ofList s, place_of_forward split forward, parent.standing, fun n mem => ?_⟩
  have move : n.toList ∈ ms := (mem_foldl_enter mem).elim nofun (·.1)
  exact refused?_eq_none.mpr ⟨h.plain _ (by simpa [split] using move), parent.short move⟩

/-- Walking the path of a location in a directory goes as far as files can have its name. -/
theorem locate_pathOf (standing : t.Standing d) (names : ∀ n ∈ d, refused? n = none)
    {name : String} (proper : ∀ n ∈ d ++ [name], Proper n) :
    t.locate (pathOf (d ++ [name])) =
      match refused? name with
      | some e => .error e
      | none => .ok (d ++ [name]) := by
  have last : Proper name := proper name (by simp)
  have nul : '\x00' ∈ (pathOf (d ++ [name])).chars ↔ '\x00' ∈ name.toList := by
    have above : ∀ n ∈ d, '\x00' ∉ n.toList := fun n mem =>
      (refused?_eq_none.mp (names n mem)).1
    rw [mem_chars_pathOf_iff proper (by decide)]
    simpa [or_imp, exists_or] using fun n mem inside => absurd inside (above n mem)
  have route : t.route (pathOf (d ++ [name])) = d.map String.toList ++ [name.toList] := by
    rw [FileTree.route, if_pos (isAbsolute_pathOf _), segments_pathOf proper (by simp),
      List.map_append, List.map_singleton]
  have walked : (d.map String.toList).foldlM t.step [] = .ok d :=
    Standing.names (n := []) standing fun n mem =>
      ⟨proper n (by simp [mem]), (refused?_eq_none.mp (names n mem)).2⟩
  have stepped := step_of_directory standing.directory name.toList
  rw [last.enter] at stepped
  rw [locate, if_neg (by simp [chars_pathOf]), refused?]
  -- a nul is refused before the path is walked, and a long name by its last step
  by_cases inside : '\x00' ∈ name.toList
  · rw [if_pos (nul.mpr inside), if_pos inside]
  · rw [if_neg (mt nul.mp inside), if_neg inside, route, List.foldlM_append, walked]
    by_cases long : nameLimit < Text.byteLength name.toList
    · rw [if_pos long] at stepped ⊢
      simp [bind, Except.bind, stepped]
    · rw [if_neg long] at stepped ⊢
      simp [bind, Except.bind, pure, Except.pure, stepped]

/-- What is seen of a file under the name it is remembered under. -/
theorem Named.ofFile_pathOf (h : t.Named p) :
    Observation.ofFile t (pathOf (t.place p)) = t.seenAt (t.place p) := by
  obtain ⟨d, name, place, standing, names⟩ := h.place_eq
  have proper : ∀ n ∈ d ++ [name], Proper n := fun n mem => (mem_place (place ▸ mem)).2
  have located := locate_pathOf standing names proper
  rw [place, seenAt, List.getLast?_concat, Option.bind_some]
  cases refused : refused? name with
  | some e =>
    rw [refused] at located
    rw [Observation.ofFile, FileTree.read, find_of_locate_error located]
    obtain rfl | rfl := refused?_cases refused <;> rfl
  | none =>
    rw [refused] at located
    rw [Observation.ofFile, read_of_locate located]
    cases t.node? (d ++ [name]) with
    | none => rfl
    | some node =>
      cases node with
      | file bytes =>
        show Except.ok (Observation.present (checksum bytes)) = _
        rw [checksum_eq_crc32]
      | directory => rfl

end DirectiveRunner.FileTree
