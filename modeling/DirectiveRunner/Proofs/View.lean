import DirectiveRunner.Invocation
import DirectiveRunner.Proofs.Moment
/-!
# What expressions see of a session

`getSession` shows the stored values, and over them the properties of the command line. `View` says
which map this has to be, given the texts of the properties and what has happened so far: of several
properties with one key the last one counts, and of several values stored under one key the one that
was stored last, unless the key is that of a property. `getSession_view` says that it is this map at
every moment of a run.

A value is stored by an expression, and it stays stored if the expression fails later on. So what is
stored is carried through the run with the events (`World.Remembers`), and not with the results.
-/

namespace DirectiveRunner

/-! ## Properties -/

namespace Invocation

/-- How a text says that a property has a value: the key, with blanks around it, and the value after
the first `=`. -/
def IsProperty (text key value : String) : Prop :=
  ∃ before, text.toList = before ++ '=' :: value.toList ∧ '=' ∉ before ∧
    Text.allBlank before = false ∧ key.toList = Text.trim before

theorem property?_eq_some_iff {text key value : String} :
    property? text = some (key, value) ↔ IsProperty text key value := by
  unfold property? IsProperty
  constructor
  · intro h
    split at h
    · next before after cut =>
      obtain ⟨split, first⟩ := Text.breakOn?_eq_some_iff.mp cut
      split at h
      · cases h
      · next visible =>
        cases h
        exact ⟨before, by simpa using split, first, by simpa using visible, by simp⟩
    · cases h
  · rintro ⟨before, split, first, visible, trimmed⟩
    rw [Text.breakOn?_eq_some_iff.mpr ⟨split, first⟩]
    simp [visible, ← trimmed]

end Invocation

/-! ## The view -/

/-- The map that a session has to show, given the texts of the properties and what has happened in the
run so far. -/
structure View (texts : List String) (events : List Event) (view : Bindings) : Prop where
  /-- Each key is there once. -/
  ordered : Dict.Ordered view
  /-- Under the key of a property there is the value of the last text that has this key. -/
  property {before text after key value} : texts = before ++ text :: after →
    Invocation.IsProperty text key value →
    (∀ t ∈ after, ∀ v, ¬Invocation.IsProperty t key v) →
    Dict.lookup (Session.propertyKey key) view = some (.str value)
  /-- Under any other key there is the value that was stored last. -/
  stored {key before value after} :
    (∀ t ∈ texts, ∀ k v, Invocation.IsProperty t k v → Session.propertyKey k ≠ key) →
    events = before ++ .stored key value :: after → (∀ v, .stored key v ∉ after) →
    Dict.lookup key view = some value
  /-- Other keys are not there. -/
  absent {key} :
    (∀ t ∈ texts, ∀ k v, Invocation.IsProperty t k v → Session.propertyKey k ≠ key) →
    (∀ v, .stored key v ∉ events) → Dict.lookup key view = none

/-- The key and the value that an event stores. -/
def Event.stored? : Event → Option (String × Value)
  | .stored key value => some (key, value)
  | _ => none

/-- `w'` comes of `w` by some events, the properties are the same, and the stored values are those that
were stored before, with those of the events set one after the other. -/
def World.Remembers (w w' : World) : Prop :=
  ∃ events, w.Leads events w' ∧ w'.session.properties = w.session.properties ∧
    w'.session.store = Dict.setAll (events.filterMap Event.stored?) w.session.store

instance : IsPreorder World World.Remembers where
  refl w := ⟨[], .refl w, rfl, rfl⟩
  trans w w₁ w₂ := by
    rintro ⟨es, lead, properties, store⟩ ⟨es', lead', properties', store'⟩
    refine ⟨es ++ es', lead.trans lead', properties'.trans properties, ?_⟩
    rw [store', store, List.filterMap_append, Dict.setAll_append]

/-- Everything in a run stores values by the events that say so, and leaves the properties alone. -/
theorem keptByRun_remembers (s : Setting) : KeptByRun World.Remembers s where
  changed w cache files := ⟨[], .of_eq rfl rfl, rfl, rfl⟩
  halted w code := ⟨_, w.leads_halt s.file.path code, rfl, rfl⟩
  stored w key v := ⟨[.stored key v], ⟨rfl, fun _ => rfl⟩, rfl, rfl⟩
  shown w title text := ⟨_, w.leads_noted _ nofun, rfl, rfl⟩
  noted w e note := by
    refine ⟨[e], w.leads_noted e ?_, rfl, ?_⟩
    · rintro f c rfl
      exact note
    · cases e <;> first | rfl | exact note.elim

theorem mem_filterMap_stored? {events : List Event} {e : String × Value} :
    e ∈ events.filterMap Event.stored? ↔ .stored e.1 e.2 ∈ events := by
  rw [List.mem_filterMap]
  constructor
  · rintro ⟨event, mem, same⟩
    cases event <;> cases same
    exact mem
  · intro mem
    exact ⟨_, mem, rfl⟩

section

variable {texts : List String} {given : List (String × String)}

theorem map_property?_of_mapM (accepted : texts.mapM Invocation.property? = some given) :
    texts.map Invocation.property? = given.map some := by
  induction texts generalizing given with
  | nil =>
    cases accepted
    rfl
  | cons t ts ih =>
    rw [List.mapM_cons] at accepted
    obtain ⟨p, first, accepted⟩ := Option.bind_eq_some_iff.mp accepted
    obtain ⟨ps, others, same⟩ := Option.bind_eq_some_iff.mp accepted
    cases same
    rw [List.map_cons, List.map_cons, first, ih others]

theorem exists_isProperty (each : texts.map Invocation.property? = given.map some)
    {p : String × String} (mem : p ∈ given) : ∃ t ∈ texts, Invocation.IsProperty t p.1 p.2 := by
  have read : some p ∈ texts.map Invocation.property? := by
    rw [each]
    exact List.mem_map_of_mem mem
  obtain ⟨t, listed, read⟩ := List.mem_map.mp read
  exact ⟨t, listed, Invocation.property?_eq_some_iff.mp read⟩

/-- Of the texts that have one key, the last one gives the value. -/
theorem lookup_of_isProperty (each : texts.map Invocation.property? = given.map some)
    {before after : List String} {text key value : String} (split : texts = before ++ text :: after)
    (here : Invocation.IsProperty text key value)
    (later : ∀ t ∈ after, ∀ v, ¬Invocation.IsProperty t key v) :
    Dict.lookup key (Dict.setAll given []) = some value := by
  -- the texts around this one have given the properties around its own
  rw [split, List.map_append, List.map_cons, Invocation.property?_eq_some_iff.mpr here] at each
  obtain ⟨earlier, _, rfl, -, tail⟩ := List.map_eq_append_iff.mp each.symm
  obtain ⟨_, others, rfl, same, rest⟩ := List.map_eq_cons_iff.mp tail
  cases same
  apply Dict.lookup_setAll_last
  rintro ⟨_, v⟩ mem rfl
  obtain ⟨t, listed, read⟩ := exists_isProperty rest.symm mem
  exact later t listed v read

/-- A world that remembers what happened since the start shows it. -/
theorem view_of_remembers (accepted : texts.mapM Invocation.property? = some given)
    {store : Option Path} {files : FileTree} {w : World}
    (h : World.Remembers { session := .start (Dict.ofList given) store, files } w) :
    View texts w.journal.reverse w.session.snapshot := by
  obtain ⟨events, lead, properties, stored⟩ := h
  have properties : w.session.properties = Dict.setAll given [] := properties
  have stored : w.session.store = Dict.setAll (events.filterMap Event.stored?) [] := stored
  have happened : w.journal.reverse = events := by
    rw [lead.journal]
    simp
  have each := map_property?_of_mapM accepted
  -- a key that no text gives is no key of a property
  have other {key : String}
      (h : ∀ t ∈ texts, ∀ k v, Invocation.IsProperty t k v → Session.propertyKey k ≠ key) :
      Dict.lookup key w.session.snapshot =
        Dict.lookup key (Dict.setAll (events.filterMap Event.stored?) []) := by
    rw [← stored]
    apply Session.lookup_snapshot_of_ne
    intro p mem
    rw [properties] at mem
    obtain ⟨t, listed, read⟩ := exists_isProperty each (by simpa using Dict.mem_of_mem_setAll mem)
    exact h t listed p.1 p.2 read
  have sorted : Dict.Ordered w.session.properties := by
    rw [properties]
    exact Dict.Ordered.setAll .nil given
  rw [happened]
  constructor
  · rw [Session.snapshot_eq, stored]
    exact .setAll (.setAll .nil _) _
  · intro before text after key value split here later
    apply Session.lookup_snapshot_property sorted
    rw [properties]
    exact lookup_of_isProperty each split here later
  · intro key before value after free split last
    have puts : events.filterMap Event.stored? =
        before.filterMap Event.stored? ++ (key, value) :: after.filterMap Event.stored? := by
      rw [split, List.filterMap_append]
      rfl
    rw [other free, puts]
    apply Dict.lookup_setAll_last
    rintro ⟨_, v⟩ mem rfl
    exact last v (mem_filterMap_stored?.mp mem)
  · intro key free never
    rw [other free]
    apply Dict.lookup_setAll_of_ne
    rintro ⟨_, v⟩ mem rfl
    exact never v (mem_filterMap_stored?.mp mem)

end

theorem exists_last {α : Type} {p : α → Prop} {l : List α} (h : ∃ x ∈ l, p x) :
    ∃ before x after, l = before ++ x :: after ∧ p x ∧ ∀ y ∈ after, ¬p y := by
  induction l with
  | nil => simp at h
  | cons a l ih =>
    by_cases later : ∃ x ∈ l, p x
    · obtain ⟨before, x, after, rfl, rest⟩ := ih later
      exact ⟨a :: before, x, after, rfl, rest⟩
    · obtain ⟨x, mem, holds⟩ := h
      rcases List.mem_cons.mp mem with rfl | mem
      · exact ⟨[], x, l, rfl, holds, fun y mem holds => later ⟨y, mem, holds⟩⟩
      · exact absurd ⟨x, mem, holds⟩ later

/-- No two maps are what a session has to show. -/
theorem View.unique {texts : List String} {events : List Event} {view view' : Bindings}
    (h : View texts events view) (h' : View texts events view') (key : String) :
    Dict.lookup key view = Dict.lookup key view' := by
  -- each key is of one of the three kinds that `View` speaks of
  by_cases property : ∃ k, Session.propertyKey k = key ∧ ∃ t ∈ texts, ∃ v, Invocation.IsProperty t k v
  · obtain ⟨k, rfl, given⟩ := property
    obtain ⟨before, t, after, split, ⟨v, here⟩, later⟩ := exists_last given
    have later : ∀ t ∈ after, ∀ v, ¬Invocation.IsProperty t k v :=
      fun t mem v here => later t mem ⟨v, here⟩
    rw [h.property split here later, h'.property split here later]
  · have free : ∀ t ∈ texts, ∀ k v, Invocation.IsProperty t k v → Session.propertyKey k ≠ key :=
      fun t mem k v here same => property ⟨k, same, t, mem, v, here⟩
    by_cases put : ∃ e ∈ events, ∃ v, e = .stored key v
    · obtain ⟨before, _, after, split, ⟨v, rfl⟩, later⟩ := exists_last put
      have later : ∀ v, .stored key v ∉ after := fun v mem => later _ mem ⟨v, rfl⟩
      rw [h.stored free split later, h'.stored free split later]
    · have never : ∀ v, .stored key v ∉ events := fun v mem => put ⟨_, mem, v, rfl⟩
      rw [h.absent free never, h'.absent free never]

/-! ## Puts -/

/-- The key and the value that a call of a helper stores. -/
def Helper.puts (name : String) : List Value → List (String × Value)
  | [.str key, value] => if name = storer then [(key, value)] else []
  | [.int n, value] => if name = storer then [(showInt n.toInt, value)] else []
  | _ => []

/-- A call stores what it is asked to, and only the call of one helper stores anything. -/
theorem Helper.call_puts (s : Setting) (w : World) (name : String) (args : List Value) :
    ∃ events, w.Leads events ((call name args).run s w).2 ∧
      events.filterMap Event.stored? = puts name args := by
  by_cases stores : name = storer
  · subst stores
    show ∃ events, w.Leads events ((putSession args).run s w).2 ∧ _
    match args with
    -- the key is a text or a number, and any other call stores nothing
    | [] | [_] | _ :: _ :: _ :: _ => exact ⟨[], .refl w, by simp [puts]⟩
    | [.str key, value] => exact ⟨[.stored key value], ⟨rfl, fun _ => rfl⟩, by rfl⟩
    | [.int n, value] => exact ⟨[.stored (showInt n.toInt) value], ⟨rfl, fun _ => rfl⟩, by rfl⟩
    | [.null, _] | [.bool _, _] | [.list _, _] | [.map _, _] | [.command _, _] =>
      exact ⟨[], .refl w, by rfl⟩
  · have nothing : puts name args = [] := by
      unfold puts
      split <;> simp [stores]
    have kept : KeptByOtherHelpers (World.Does fun e => e.stored? = none) s := {
      changed w cache files := ⟨[], .of_eq rfl rfl, by simp⟩
      halted w code := ⟨[_], w.leads_halt s.file.path code, by simp [Event.stored?]⟩
      shown w title text := .noted rfl nofun }
    obtain ⟨events, lead, quiet⟩ :=
      call_keeps_of kept (fun same => absurd same stores) (fun _ w _ _ => .noted rfl nofun) args w
    refine ⟨events, lead, ?_⟩
    rw [nothing, List.filterMap_eq_nil_iff]
    exact quiet

/-! ## The view at every moment -/

/-- **What expressions see of a session.** Take any texts that are accepted as properties, and any
moment of a run that starts with these properties and nothing stored. Then, before and after the part
that is carried out there, `getSession` shows the map that it has to show (`View`): the properties,
whatever is stored, and under the other keys what was stored last. A value is stored by the calls of
`putSession`, and by nothing else, and it stays stored if the expression fails later on. -/
theorem getSession_view {texts : List String} {given : List (String × String)}
    (accepted : texts.mapM Invocation.property? = some given) {s : Setting} {store : Option Path}
    {files : FileTree} {targets : List ProjectFile} {m : Moment}
    (reached : Moment.Reached
      ⟨s, { session := .start (Dict.ofList given) store, files }, .files targets⟩ m) :
    (∀ w ∈ [m.world, m.after], ∃ view,
      (Helper.call "getSession" []).run m.setting w = (.ok (.map view), w) ∧
        View texts w.journal.reverse view) ∧
      ∀ name args, ∃ events,
        m.world.Leads events ((Helper.call name args).run m.setting m.world).2 ∧
          events.filterMap Event.stored? = Helper.puts name args := by
  obtain ⟨before, after⟩ := KeptByRun.reached keptByRun_remembers reached
  constructor
  · intro w mem
    refine ⟨w.session.snapshot, rfl, ?_⟩
    rcases List.mem_pair.mp mem with rfl | rfl
    · exact view_of_remembers accepted before
    · exact view_of_remembers accepted after
  · exact fun name args => Helper.call_puts m.setting m.world name args

/-- A project whose rule stores a value under the key of a property, and then fails. -/
def shadowing : FileTree :=
  .ofTexts
    [("doc.tex", "% arara: shadow\n"),
      ("shadow.yaml", "identifier: shadow\ncommands:\n- command: " ++
        "'@\x7b putSession(\"arg:a\", 5); throwError(\"late\") \x7d'\n")]

/-- The last text of a property counts, and what is stored in its place remains unseen. -/
theorem getSession_view_shadowing :
    let texts := ["a=1", " a =2=3", "b="]
    let given := [("a", "1"), ("a", "2=3"), ("b", "")]
    let m : Moment :=
      { setting := .ofDocument "doc.tex" true
        world := { session := .start (Dict.ofList given) none, files := shadowing }
        task := .files [.ofName "doc.tex"] }
    texts.mapM Invocation.property? = some given ∧ .stored "arg:a" (.int 5) ∈ m.after.journal ∧
      ∃ view, (Helper.call "getSession" []).run m.setting m.after = (.ok (.map view), m.after) ∧
        Dict.lookup "arg:a" view = some (.str "2=3") := by
  intro texts given m
  have accepted : texts.mapM Invocation.property? = some given := by decide +kernel
  have put : .stored "arg:a" (.int 5) ∈ m.after.journal := by decide +kernel
  have reached : m.Reached m := .start
  obtain ⟨view, shown, right⟩ :=
    (getSession_view accepted reached).1 m.after (List.mem_cons_of_mem _ List.mem_cons_self)
  refine ⟨accepted, put, view, shown, ?_⟩
  have split : texts = ["a=1"] ++ " a =2=3" :: ["b="] := rfl
  have last : Invocation.IsProperty " a =2=3" "a" "2=3" :=
    Invocation.property?_eq_some_iff.mp (by decide +kernel)
  refine right.property split last fun t mem v later => ?_
  -- the text after it has another key
  cases List.mem_singleton.mp mem
  have read := Invocation.property?_eq_some_iff.mpr later
  have other : Invocation.property? "b=" = some ("b", "") := by decide +kernel
  simp [read] at other

end DirectiveRunner
