import DirectiveRunner.Proofs.Route
/-!
# Trees that differ in one place

A path that neither leads to a location nor through it (`Avoids`) does not show what is found there:
in trees that agree everywhere else, the same is found at the path, a file is remembered under the same
name and written at the same location (`Agree.find_eq`, `Agree.keyOf_eq`, `Agree.writable_eq`).

The other way round, writing and deleting files elsewhere does not touch a location (`Spares`): what
is found there stays, and it can be written as before (`Spares.writable`).
-/

namespace DirectiveRunner.FileTree

variable {t t' : FileTree} {l x : Location} {p q : Path} {ss : List (List Char)}

/-! ## Agreement -/

/-- Two trees differ at most in what is found at one location. -/
structure Agree (l : Location) (t t' : FileTree) : Prop where
  current : t'.current = t.current
  node : ∀ n, n ≠ l → t'.node? n = t.node? n

/-- A path neither leads to a location nor through it. -/
def Avoids (t : FileTree) (l : Location) (p : Path) : Prop := ∀ ms, ms <+: t.moves p → follow ms ≠ l

theorem Avoids.place_ne (h : t.Avoids l p) : t.place p ≠ l := h _ (List.prefix_refl _)

theorem Avoids.mono (h : t.Avoids l p) (moves : t.moves q <+: t.moves p) : t.Avoids l q :=
  fun ms start => h ms (start.trans moves)

theorem Avoids.of_current (h : t.Avoids l p) (current : t'.current = t.current) :
    t'.Avoids l p := by
  rw [Avoids, moves_of_current current]
  exact h

/-- The segments of a path pass the places of its moves. -/
theorem Avoids.route (h : t.Avoids l p) (start : ss <+: t.route p) : follow ss ≠ l := by
  rw [← follow_filter]
  exact h _ (filter_route t p ▸ start.filter Path.leads)

/-- Whatever lies above the place of a path is avoided as well. -/
theorem Avoids.above (h : t.Avoids l p) (above : x <+: t.place p) : x ≠ l := by
  obtain ⟨ms, start, rfl⟩ := prefix_follow above
  exact h ms start

theorem Avoids.pathOf (h : t.Avoids l p) : t.Avoids l (pathOf (t.place p)) := by
  intro ms start
  have proper : ∀ n ∈ t.place p, Proper n := fun n mem => (mem_place mem).2
  rw [moves_of_isAbsolute (isAbsolute_pathOf _), moves_pathOf proper] at start
  obtain ⟨names, above, rfl⟩ := List.prefix_map_iff.mp start
  rw [follow_map fun n mem => proper n (above.subset mem)]
  exact h.above above

/-- The name that a file is remembered under avoids what its path avoids. -/
theorem Avoids.keyOf (h : t.Avoids l p) : t.Avoids l (Cache.keyOf t p) := by
  by_cases empty : p.chars = []
  · rwa [keyOf_of_empty t empty]
  · rcases keyOf_cases t empty with key | ⟨key, -⟩
    · rw [key]
      exact h.pathOf
    · obtain ⟨absolute, moves⟩ := absoluteFrom_base t p
      rw [key]
      intro ms start
      rw [moves_of_isAbsolute absolute, moves] at start
      exact h ms start

namespace Agree

variable (agree : Agree l t t')

include agree

theorem base_eq : t'.base = t.base := congrArg pathOf agree.current

theorem route_eq (p : Path) : t'.route p = t.route p := by
  rw [route, route, agree.base_eq]

theorem place_eq (p : Path) : t'.place p = t.place p := by
  rw [place, place, moves_of_current agree.current]

theorem walk_eq {n : Location} (h : ∀ ms, ms <+: ss → ms.foldl enter n ≠ l) :
    ss.foldlM t'.step n = ss.foldlM t.step n := by
  induction ss generalizing n with
  | nil => rfl
  | cons s ss ih =>
    have here : t'.step n s = t.step n s := by
      unfold step
      rw [agree.node n (h [] List.nil_prefix)]
    rw [List.foldlM_cons, List.foldlM_cons, here]
    cases stepped : t.step n s with
    | error e => rfl
    | ok next =>
      obtain ⟨-, -, rfl⟩ := step_eq_ok.mp stepped
      exact ih fun ms start => h (s :: ms) (List.cons_prefix_cons.mpr ⟨rfl, start⟩)

theorem locate_eq (h : t.Avoids l p) : t'.locate p = t.locate p := by
  rw [locate, locate, agree.route_eq, agree.walk_eq fun ms start => h.route start]

theorem find_eq (h : t.Avoids l p) : t'.find p = t.find p := by
  rw [find, find, agree.locate_eq h]
  cases located : t.locate p with
  | error e => rfl
  | ok n =>
    have other : n ≠ l := place_of_locate located ▸ h.place_ne
    simp only [bind, Except.bind, agree.node n other]

theorem canonical_eq (h : t.Avoids l p) : t'.canonical p = t.canonical p := by
  rw [canonical, canonical, agree.find_eq h]

theorem ofFile_eq (h : t.Avoids l p) : Observation.ofFile t' p = Observation.ofFile t p := by
  rw [Observation.ofFile, Observation.ofFile, FileTree.read, FileTree.read, agree.find_eq h]

theorem keyOf_eq (h : t.Avoids l p) : Cache.keyOf t' p = Cache.keyOf t p := by
  by_cases empty : p.chars = []
  · rw [keyOf_of_empty t empty, keyOf_of_empty t' empty]
  · obtain ⟨absolute, moves⟩ := absoluteFrom_base t p
    unfold Cache.keyOf
    rw [agree.canonical_eq h, agree.base_eq, if_neg (by simpa using empty)]
    cases t.canonical p with
    | ok c => rfl
    | error e =>
      rcases Path.parent?_of_isAbsolute absolute with ⟨parent, -⟩ | ⟨r, s, parent, upper, split⟩
      · simp only [parent]
      · have start : t.moves r <+: t.moves p := by
          rw [← moves, split, moves_of_isAbsolute upper]
          exact List.prefix_append _ _
        simp only [parent]
        cases (Path.absoluteFrom t.base p).fileName? with
        | none => rfl
        | some name => simp only [agree.canonical_eq (h.mono start)]

theorem writable_eq (h : t.Avoids l p) : t'.writable p = t.writable p := by
  have directory :
      (t'.route p).dropLast.foldlM t'.step [] = (t.route p).dropLast.foldlM t.step [] := by
    rw [agree.route_eq]
    exact agree.walk_eq fun ms start => h.route (start.trans (List.dropLast_prefix _))
  unfold writable
  rw [directory, agree.locate_eq h]
  cases located : t.locate p with
  | error e => rfl
  | ok n =>
    obtain rfl := place_of_locate located
    simp only [bind, Except.bind, agree.node _ h.place_ne,
      agree.node _ (h.above (List.dropLast_prefix _))]

end Agree

/-! ## Writing and deleting -/

theorem standing_of_locate (h : t.locate p = .ok l) : t.Standing l.dropLast :=
  (Standing.nil.walk (fun _ standing => standing.directory) (locate_eq_ok.mp h).2.2).1

/-- A file can be written where a path leads to, except in place of a directory. -/
theorem writable_eq_ok : t.writable p = .ok l ↔
    p.chars.getLast? ≠ some '/' ∧ t.locate p = .ok l ∧ t.node? l ≠ some .directory := by
  unfold writable
  by_cases slash : p.chars.getLast? = some '/'
  · simp only [slash, if_true]
    cases (t.route p).dropLast.foldlM t.step [] <;> simp [bind, Except.bind]
  · simp only [slash, if_false]
    cases located : t.locate p with
    | error e => simp [bind, Except.bind]
    | ok n =>
      have above := (standing_of_locate located).directory
      simp only [bind, Except.bind, Except.ok.injEq]
      have kept (other : t.node? n ≠ some .directory) : n = l ↔
          p.chars.getLast? ≠ some '/' ∧ n = l ∧ t.node? l ≠ some .directory :=
        ⟨fun same => ⟨slash, same, same ▸ other⟩, fun ⟨_, same, _⟩ => same⟩
      cases found : t.node? n with
      | none => simpa [above] using kept (by simp [found])
      | some node =>
        cases node with
        | file bytes => simpa using kept (by simp [found])
        | directory => exact ⟨nofun, fun ⟨_, same, other⟩ => absurd (same ▸ found) other⟩

theorem node?_put (h : l ≠ []) (node : FileNode) (n : Location) :
    (t.put l node).node? n = if n = l then some node else t.node? n := by
  split
  · next same => rw [same, node?_put_self h]
  · next other => rw [node?_put_of_ne other]

theorem node?_of_ne (h : l ≠ []) : t.node? l = Dict.lookup l t.nodes :=
  if_neg (by simpa using h)

theorem remove_of_find {entry : Location × FileNode} (h : t.find p = .ok entry) :
    ∃ t', t.remove p = .ok t' := by
  unfold remove
  rw [h]
  exact ⟨_, rfl⟩

/-- A tree without what was at a path. -/
theorem remove_eq_ok (h : t.remove p = .ok t') : t'.current = t.current ∧
    ∀ n, t'.node? n = if n ≠ [] ∧ t.place p <+: n then none else t.node? n := by
  unfold remove at h
  cases found : t.find p with
  | error e => rw [found] at h; cases h
  | ok entry =>
    rw [found] at h
    obtain rfl := Except.ok.inj h
    rw [place_of_locate (find_eq_ok.mp found).1]
    refine ⟨rfl, fun n => ?_⟩
    -- the root is there whatever is listed, so the entries say nothing about it
    by_cases root : n = []
    · rw [root, if_neg (fun h => h.1 rfl)]
      rfl
    · rw [node?_of_ne root, node?_of_ne root]
      split
      · next below =>
        refine Dict.lookup_eq_none fun e mem same => ?_
        have apart := (List.mem_filter.mp mem).2
        simp [same, List.isPrefixOf_iff_prefix.mpr below.2] at apart
      · next apart =>
        refine Dict.lookup_filter fun e _ same => ?_
        have apart : entry.1.isPrefixOf n = false := Bool.eq_false_iff.mpr fun below =>
          apart ⟨root, List.isPrefixOf_iff_prefix.mp below⟩
        rw [same, apart]
        rfl

/-! ## Changes elsewhere -/

/-- A change keeps the directories and what is found at a location. -/
structure Spares (l : Location) (t t' : FileTree) : Prop where
  current : t'.current = t.current
  kept : ∀ d, t.Standing d → t'.node? d = some .directory
  node : t'.node? l = t.node? l

/-- Whatever is put in place of no directory, the directories are kept. -/
theorem kept_put (h : t.node? l ≠ some .directory) (node : FileNode) (d : Location)
    (standing : t.Standing d) : (t.put l node).node? d = some .directory := by
  have other : d ≠ l := fun same => h (same ▸ standing.directory)
  rw [node?_put_of_ne other, standing.directory]

/-- A walk through directories that are kept leads to the same location. -/
theorem locate_of_kept (current : t'.current = t.current)
    (kept : ∀ d, t.Standing d → t'.node? d = some .directory) (h : t.locate p = .ok l) :
    t'.locate p = .ok l := by
  obtain ⟨nonempty, plain, walked⟩ := locate_eq_ok.mp h
  refine locate_eq_ok.mpr ⟨nonempty, plain, ?_⟩
  have route : t'.route p = t.route p := by rw [route, route, base, base, current]
  rw [route]
  exact (Standing.nil.walk kept walked).2

/-- Where the directories are kept and there is none in its place, a file can be written as before. -/
theorem writable_of_kept (current : t'.current = t.current)
    (kept : ∀ d, t.Standing d → t'.node? d = some .directory)
    (other : t'.node? l ≠ some .directory) (h : t.writable p = .ok l) : t'.writable p = .ok l := by
  obtain ⟨unclosed, located, -⟩ := writable_eq_ok.mp h
  exact writable_eq_ok.mpr ⟨unclosed, locate_of_kept current kept located, other⟩

theorem Spares.writable (spares : Spares l t t') (h : t.writable p = .ok l) :
    t'.writable p = .ok l :=
  writable_of_kept spares.current spares.kept (spares.node ▸ (writable_eq_ok.mp h).2.2) h

/-- The tree after a file was written, if it could be. -/
def wrote (t : FileTree) (p : Path) (bytes : ByteArray) : FileTree :=
  (t.write p bytes).toOption.getD t

/-- The tree after a file was deleted, if there was one. -/
def deleted (t : FileTree) (p : Path) : FileTree :=
  if t.isFile p then (t.remove p).toOption.getD t else t

theorem wrote_cases (t : FileTree) (p : Path) (bytes : ByteArray) :
    t.wrote p bytes = t ∨
      t.node? (t.place p) ≠ some .directory ∧
        t.wrote p bytes = t.put (t.place p) (.file bytes) := by
  unfold wrote write
  cases writable : t.writable p with
  | error e => exact .inl rfl
  | ok l =>
    obtain ⟨-, located, other⟩ := writable_eq_ok.mp writable
    rw [place_of_locate located]
    exact .inr ⟨other, rfl⟩

theorem deleted_cases (t : FileTree) (p : Path) :
    t.deleted p = t ∨
      (∃ bytes, t.node? (t.place p) = some (.file bytes)) ∧ (t.deleted p).current = t.current ∧
        ∀ n, (t.deleted p).node? n = if n ≠ [] ∧ t.place p <+: n then none else t.node? n := by
  unfold deleted
  split
  · next file =>
    cases removed : t.remove p with
    | error e => exact .inl rfl
    | ok t' =>
      refine .inr ⟨?_, remove_eq_ok removed⟩
      unfold isFile at file
      split at file
      · next l bytes found =>
        obtain ⟨located, node⟩ := find_eq_ok.mp found
        exact ⟨bytes, place_of_locate located ▸ node⟩
      · cases file
  · exact .inl rfl

theorem Spares.refl (l : Location) (t : FileTree) : Spares l t t :=
  ⟨rfl, fun _ standing => standing.directory, rfl⟩

/-- Writing a file at another place. -/
theorem spares_wrote (h : t.place p ≠ l) (bytes : ByteArray) : Spares l t (t.wrote p bytes) := by
  rcases wrote_cases t p bytes with same | ⟨other, put⟩
  · rw [same]
    exact .refl l t
  · rw [put]
    exact ⟨rfl, kept_put other _, node?_put_of_ne h.symm t _⟩

/-- Deleting a file at another place. -/
theorem spares_deleted (h : t.place p ≠ l) (standing : t.Standing l.dropLast) :
    Spares l t (t.deleted p) := by
  rcases deleted_cases t p with same | ⟨⟨bytes, file⟩, current, node⟩
  · rw [same]
    exact .refl l t
  · -- a file has no directory below it, so nothing that stands is deleted
    have above {d : Location} (standing : t.Standing d) : ¬t.place p <+: d := fun below => by
      rw [standing _ below] at file
      cases file
    refine ⟨current, fun d standing => ?_, ?_⟩
    · rw [node, if_neg fun below => above standing below.2, standing.directory]
    · rw [node, if_neg fun below => ?_]
      rcases List.eq_nil_or_concat l with rfl | ⟨d, name, rfl⟩
      · exact below.1 rfl
      · rw [List.concat_eq_append] at *
        rw [List.dropLast_concat] at standing
        rcases List.prefix_concat_iff.mp below.2 with same | below
        · exact h same
        · exact above standing below

namespace Agree

variable (agree : Agree l t t')

include agree

theorem wrote (h : t.Avoids l p) (bytes : ByteArray) :
    Agree l (t.wrote p bytes) (t'.wrote p bytes) := by
  unfold FileTree.wrote write
  rw [agree.writable_eq h]
  cases writable : t.writable p with
  | error e => exact agree
  | ok x =>
    refine ⟨agree.current, fun n other => ?_⟩
    have inner : x ≠ [] := fun root => (writable_eq_ok.mp writable).2.2 (root ▸ rfl)
    change (t'.put x _).node? n = (t.put x _).node? n
    rw [node?_put inner, node?_put inner, agree.node n other]

theorem deleted (h : t.Avoids l p) : Agree l (t.deleted p) (t'.deleted p) := by
  have file : t'.isFile p = t.isFile p := by rw [isFile, isFile, agree.find_eq h]
  unfold FileTree.deleted
  rw [file]
  split
  · -- both trees find the same entry, so both remove it or neither does
    cases found : t.find p with
    | error e =>
      rw [remove, remove, agree.find_eq h, found]
      exact agree
    | ok entry =>
      obtain ⟨u, removed⟩ := remove_of_find found
      obtain ⟨u', removed'⟩ := remove_of_find ((agree.find_eq h).trans found)
      obtain ⟨current, node⟩ := remove_eq_ok removed
      obtain ⟨current', node'⟩ := remove_eq_ok removed'
      rw [removed, removed']
      refine ⟨(current'.trans agree.current).trans current.symm, fun n other => ?_⟩
      change u'.node? n = u.node? n
      rw [node, node', agree.place_eq, agree.node n other]
  · exact agree

end Agree

end DirectiveRunner.FileTree
