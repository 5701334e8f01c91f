import DirectiveRunner.Proofs.Agreement
import DirectiveRunner.Proofs.Execution
import DirectiveRunner.Run.File
/-!
# Resolving a file again

A file is found by its name, or by its name with a known extension written after it, and goes by its
one path from then on. The type of that path is told by what follows the last dot of its file name,
which is not always the extension that the file was found with: an extension that holds a dot of its
own is not found in the name again, and neither is one that was written after nothing.

* `FileTree.fileName?_of_find` — a path that leads to a file ends in its name, however it is spelled.
* `FileTree.find_pathOf` — the one path of a file leads to it.
* `ProjectFile.resolve_again` — when the path of a file is resolved to the same file.
-/

namespace DirectiveRunner

/-! ## Last pieces -/

namespace Text

variable {sep : Char} {cs p r : List Char}

/-- The last piece of a text follows its last separator. -/
theorem getLast?_pieces_iff : (pieces sep cs).getLast? = some p ↔
    sep ∉ p ∧ (cs = p ∨ ∃ before, cs = before ++ sep :: p) := by
  constructor
  · intro last
    obtain ⟨ps, split⟩ := List.getLast?_eq_some_iff.mp last
    have mem : p ∈ pieces sep cs := List.mem_of_getLast? last
    refine ⟨fun inside => (mem_of_mem_pieces mem inside).2 rfl, ?_⟩
    have text := joinWith_pieces sep cs
    rw [split] at text
    by_cases single : ps = []
    · subst single
      exact .inl text.symm
    · rw [joinWith_concat single, List.append_assoc, List.singleton_append] at text
      exact .inr ⟨_, text.symm⟩
  · rintro ⟨plain, rfl | ⟨before, rfl⟩⟩
    · rw [pieces_of_not_mem plain]
      rfl
    · rw [pieces_append_sep, pieces_of_not_mem plain, List.getLast?_concat]

theorem exists_getLast?_pieces (sep : Char) (cs : List Char) :
    ∃ p, (pieces sep cs).getLast? = some p :=
  ⟨_, List.getLast?_eq_some_getLast (pieces_ne_nil sep cs)⟩

/-- What is written at the end of a text is written at the end of its last piece. -/
theorem getLast?_pieces_append (last : (pieces sep cs).getLast? = some p) (h : sep ∉ r) :
    (pieces sep (cs ++ r)).getLast? = some (p ++ r) := by
  obtain ⟨plain, split⟩ := getLast?_pieces_iff.mp last
  refine getLast?_pieces_iff.mpr ⟨by simp [plain, h], ?_⟩
  rcases split with rfl | ⟨before, rfl⟩
  · exact .inl rfl
  · exact .inr ⟨before, by simp⟩

theorem getLast?_pieces_eq_nil_iff :
    (pieces sep cs).getLast? = some [] ↔ cs = [] ∨ cs.getLast? = some sep := by
  rw [getLast?_pieces_iff, List.getLast?_eq_some_iff]
  simp

end Text

namespace Path

variable {p : Path} {name : String} {s stem e : List Char}

/-- A text that is joined to a path ends in nothing if there is no text or it ends in a slash. -/
theorem getLast?_pieces_join (d : Path) (name : String) :
    (Text.pieces '/' (d.join name).chars).getLast? = some [] ↔
      name = "" ∨ name.toList.getLast? = some '/' := by
  rw [Text.getLast?_pieces_eq_nil_iff, ← String.toList_eq_nil_iff]
  unfold join
  split
  · rfl
  · split
    · next ends =>
      have ends : d.chars = [] ∨ d.chars.getLast? = some '/' := by simpa using ends
      have joined : (Path.mk (d.text ++ name)).chars = d.chars ++ name.toList := by simp [chars]
      rw [joined]
      cases name.toList with
      | nil => simpa using ends
      | cons c cs => simp [List.getLast?_append]
    · have joined : (Path.mk (d.text ++ "/" ++ name)).chars = d.chars ++ '/' :: name.toList := by
        simp [chars]
      rw [joined]
      cases name.toList with
      | nil => simp
      | cons c cs => simp [List.getLast?_append]

/-- The file name is the last piece of a path, if that is a name. -/
theorem fileName?_of_last (last : (Text.pieces '/' p.chars).getLast? = some s)
    (moving : leads s = true) (forward : s ≠ ['.', '.']) : p.fileName? = some (.ofList s) := by
  obtain ⟨ss, split⟩ := List.getLast?_eq_some_iff.mp last
  have moves : p.moves = ss.filter leads ++ [s] := by
    rw [moves, split, List.filter_append, List.filter_cons_of_pos moving, List.filter_nil]
  obtain ⟨start, -, components⟩ := components_eq p
  rw [fileName?, components, moves, List.map_append, List.map_singleton, ← List.append_assoc,
    List.getLast?_concat, componentOf, if_neg forward]

theorem extension?_of_fileName? (h : p.fileName? = some (.ofList s)) :
    p.extension? = (splitName s).2.map .ofList := by
  rw [extension?, h, Option.bind_some, String.toList_ofList]

/-- The extension is what was written after a dot at the end of a name, if there is no dot in it. -/
theorem splitName_append (h : '.' ∉ e) :
    (splitName (stem ++ '.' :: e)).2 = if stem = [] then none else some e := by
  rw [splitName, Text.breakOnLast?_append h]
  cases stem <;> simp

/-- An extension holds characters of the name, but no dot. -/
theorem mem_splitName {c : Char} (h : (splitName s).2 = some e) (hc : c ∈ e) : c ∈ s ∧ c ≠ '.' := by
  unfold splitName at h
  split at h
  · cases h
  · next before after _ cut =>
    obtain rfl := Option.some.inj h
    obtain ⟨⟨b, a⟩, found, same⟩ := Option.map_eq_some_iff.mp cut
    obtain ⟨-, rfl⟩ := Prod.mk.inj same
    obtain ⟨split, plain⟩ := Text.breakOn?_eq_some_iff.mp found
    have inside : c ∈ b := List.mem_reverse.mp hc
    refine ⟨List.mem_reverse.mp (split ▸ List.mem_append_left _ inside), ?_⟩
    rintro rfl
    exact plain inside
  · cases h

end Path

/-! ## Files that are found -/

namespace FileTree

open DirectiveRunner.Path (leads)

variable {t : FileTree} {p : Path} {l : Location} {s : List Char} {ss : List (List Char)}
  {bytes : ByteArray}

/-- The last segment that a path is walked by is its last piece. -/
theorem getLast?_route (t : FileTree) (p : Path) :
    (t.route p).getLast? = (Text.pieces '/' p.chars).getLast? := by
  obtain ⟨s, last⟩ := Text.exists_getLast?_pieces '/' p.chars
  rw [last]
  unfold route
  cases absolute : p.isAbsolute with
  | true =>
    have slash : Text.pieces '/' ('/' :: p.chars.drop 1) =
        [] :: Text.pieces '/' (p.chars.drop 1) := by simp [Text.pieces]
    obtain ⟨s', last'⟩ := Text.exists_getLast?_pieces '/' (p.chars.drop 1)
    rw [Path.chars_eq_of_isAbsolute absolute, slash, List.getLast?_cons, last'] at last
    rw [if_pos rfl, Path.segments, absolute, if_pos rfl, last']
    exact last
  | false =>
    have own : p.segments = Text.pieces '/' p.chars := by
      rw [Path.segments, absolute, if_neg Bool.false_ne_true]
    rw [if_neg Bool.false_ne_true, List.getLast?_append, own, last]
    rfl

/-- A path that leads to a file ends in its name. -/
theorem last_of_find (h : t.find p = .ok (l, .file bytes)) :
    ∃ d s, l = d ++ [.ofList s] ∧ (Text.pieces '/' p.chars).getLast? = some s ∧ leads s = true ∧
      s ≠ ['.', '.'] := by
  obtain ⟨located, file⟩ := find_eq_ok.mp h
  have walked := (locate_eq_ok.mp located).2.2
  obtain ⟨s, last⟩ := Text.exists_getLast?_pieces '/' p.chars
  obtain ⟨ss, split⟩ := List.getLast?_eq_some_iff.mp ((getLast?_route t p).trans last)
  rw [split, List.foldlM_append] at walked
  -- the last segment is the step that arrives, and the others lead to a directory `d`
  cases arrived : ss.foldlM t.step [] with
  | error e => rw [arrived] at walked; cases walked
  | ok d =>
    rw [arrived] at walked
    have stepped : t.step d s = .ok l := by
      rw [← walked]
      cases next : t.step d s <;> simp [bind, Except.bind, pure, Except.pure, next]
    obtain ⟨directory, -, entered⟩ := step_eq_ok.mp stepped
    have above := (Standing.nil.walk (fun _ standing => standing.directory) arrived).1
    -- every step but one into an entry ends at a directory, and a file was found
    unfold enter at entered
    split at entered
    · rw [← entered, above.directory] at file
      cases file
    · next forward =>
      split at entered
      · next moving => exact ⟨d, s, entered.symm, last, moving, forward⟩
      · rw [← entered, directory] at file
        cases file

/-- However a path to a file is spelled, it has the name of the file. -/
theorem fileName?_of_find (h : t.find p = .ok (l, .file bytes)) : p.fileName? = l.getLast? := by
  obtain ⟨d, s, rfl, last, moving, forward⟩ := last_of_find h
  rw [Path.fileName?_of_last last moving forward, List.getLast?_concat]

/-- The segments of a walk are no longer than names may be. -/
theorem short_of_walk {l' : Location} (walked : ss.foldlM t.step l = .ok l') (mem : s ∈ ss) :
    Text.byteLength s ≤ nameLimit := by
  induction ss generalizing l with
  | nil => cases mem
  | cons s' ss ih =>
    rw [List.foldlM_cons] at walked
    cases stepped : t.step l s' with
    | error e => rw [stepped] at walked; cases walked
    | ok next =>
      rw [stepped] at walked
      rcases List.mem_cons.mp mem with rfl | later
      · exact (step_eq_ok.mp stepped).2.1
      · exact ih walked later

/-- Files can have the names on the way to what a path leads to. -/
theorem proper_of_locate (h : t.locate p = .ok l) (plain : '\x00' ∉ t.base.chars) {n : String}
    (mem : n ∈ l) : Proper n ∧ refused? n = none := by
  obtain ⟨-, noNul, walked⟩ := locate_eq_ok.mp h
  obtain ⟨move, proper⟩ := mem_place (t := t) (p := p) (place_of_locate h ▸ mem)
  have segment : n.toList ∈ t.route p := by
    rw [← filter_route] at move
    exact (List.mem_filter.mp move).1
  refine ⟨proper, refused?_eq_none.mpr ⟨fun nul => ?_, short_of_walk walked segment⟩⟩
  rcases List.mem_append.mp move with above | own
  · split at above
    · cases above
    · exact plain (Path.mem_of_mem_moves above nul).1
  · exact noNul (Path.mem_of_mem_moves own nul).1

/-- The one path of a file leads to it. -/
theorem find_pathOf (h : t.find p = .ok (l, .file bytes)) (plain : '\x00' ∉ t.base.chars) :
    t.find (pathOf l) = .ok (l, .file bytes) := by
  obtain ⟨located, file⟩ := find_eq_ok.mp h
  obtain ⟨d, s, rfl, -⟩ := last_of_find h
  have standing := standing_of_locate located
  rw [List.dropLast_concat] at standing
  have names {n : String} (mem : n ∈ d ++ [.ofList s]) := proper_of_locate located plain mem
  refine find_eq_ok.mpr ⟨?_, file⟩
  rw [locate_pathOf standing (fun n mem => (names (List.mem_append_left _ mem)).2)
    fun n mem => (names mem).1, (names (by simp)).2]

theorem isFile_iff : t.isFile p = true ↔ ∃ l bytes, t.find p = .ok (l, .file bytes) := by
  unfold isFile
  split
  · next l bytes found => exact iff_of_true rfl ⟨l, bytes, found⟩
  · next other => exact iff_of_false Bool.false_ne_true fun ⟨l, bytes, found⟩ => other l bytes found

theorem last_of_isFile (h : t.isFile p = true) :
    ∃ s, (Text.pieces '/' p.chars).getLast? = some s ∧ leads s = true ∧
      p.fileName? = some (.ofList s) := by
  obtain ⟨l, bytes, found⟩ := isFile_iff.mp h
  obtain ⟨-, s, -, last, moving, forward⟩ := last_of_find found
  exact ⟨s, last, moving, Path.fileName?_of_last last moving forward⟩

end FileTree

/-! ## Resolving -/

namespace ProjectFile

variable {files : FileTree} {name : String} {p q directory : Path} {types : List FileType}
  {type : FileType} {f : ProjectFile}

/-- `q` is the one path of the file at `p`. -/
structure Settles (files : FileTree) (p q : Path) : Prop where
  absolute : q.isAbsolute = true
  isFile : files.isFile q = true
  located (type : FileType) : located files q type = ⟨q, type⟩
  fileName : q.fileName? = p.fileName?

theorem settles_located (plain : '\x00' ∉ files.base.chars) (file : files.isFile p = true)
    (type : FileType) : Settles files p (located files p type).path := by
  obtain ⟨l, bytes, found⟩ := FileTree.isFile_iff.mp file
  have again := FileTree.find_pathOf found plain
  have path : (located files p type).path = FileTree.pathOf l := by
    simp [located, FileTree.canonical, found, Except.map, Except.toOption]
  rw [path]
  refine ⟨FileTree.isAbsolute_pathOf l, FileTree.isFile_iff.mpr ⟨l, bytes, again⟩, fun type => ?_, ?_⟩
  · simp [located, FileTree.canonical, again, Except.map, Except.toOption]
  · rw [FileTree.fileName?_of_find again, FileTree.fileName?_of_find found]

theorem Settles.extension (h : Settles files p q) : q.extension? = p.extension? := by
  rw [Path.extension?, Path.extension?, h.fileName]

/-- The type of the one path of a file is that of what follows the last dot of its name. -/
theorem Settles.asNamed? (h : Settles files p q) (types : List FileType) :
    asNamed? files q types = (FileType.find? types (q.extension?.getD "")).map (⟨q, ·⟩) := by
  rw [ProjectFile.asNamed?, if_pos h.isFile]
  congr 1
  funext type
  exact h.located type

theorem resolve_eq_ok : resolve files name directory types = .ok f ↔
    asNamed? files (directory.join name) types = some f ∨
      asNamed? files (directory.join name) types = none ∧
        asExtended? files (directory.join name) types = some f := by
  dsimp only [resolve]
  generalize asNamed? files (directory.join name) types = named
  generalize asExtended? files (directory.join name) types = longer
  cases named <;> cases longer <;> simp

theorem getLast?_pieces_extended {stem : List Char}
    (last : (Text.pieces '/' p.chars).getLast? = some stem) (h : '/' ∉ type.extension.toList) :
    (Text.pieces '/' (extended p type).chars).getLast? =
      some (stem ++ '.' :: type.extension.toList) := by
  have chars : (extended p type).chars = p.chars ++ '.' :: type.extension.toList := by
    simp [extended, Path.chars]
  rw [chars]
  exact Text.getLast?_pieces_append last (by simp [h])

/-- An extension that was written after a path is found in the name of the file if it is a single one
and follows a name. -/
theorem extension_extended_iff (file : files.isFile (extended p type) = true) :
    (extended p type).extension?.getD "" = type.extension ↔
      ('.' ∉ type.extension.toList ∧ '/' ∉ type.extension.toList) ∧
        (Text.pieces '/' p.chars).getLast? ≠ some [] := by
  obtain ⟨s, last, moving, name⟩ := FileTree.last_of_isFile file
  obtain ⟨stem, before⟩ := Text.exists_getLast?_pieces '/' p.chars
  have split (slashless : '/' ∉ type.extension.toList) : s = stem ++ '.' :: type.extension.toList :=
    Option.some.inj (last.symm.trans (getLast?_pieces_extended before slashless))
  rw [Path.extension?_of_fileName? name, before, ne_eq, Option.some.injEq]
  constructor
  · intro same
    have single : '.' ∉ type.extension.toList ∧ '/' ∉ type.extension.toList := by
      rw [← same]
      cases cut : (Path.splitName s).2 with
      | none => simp
      | some e =>
        have slashless := (Text.getLast?_pieces_iff.mp last).1
        simp only [Option.map_some, Option.getD_some, String.toList_ofList]
        exact ⟨fun dot => (Path.mem_splitName cut dot).2 rfl,
          fun slash => slashless (Path.mem_splitName cut slash).1⟩
    refine ⟨single, ?_⟩
    rintro rfl
    obtain rfl := split single.2
    -- a name that starts with its only dot has no extension, and the dot alone is no name
    rw [Path.splitName_append single.1, if_pos rfl] at same
    simp [← same, Path.leads] at moving
  · rintro ⟨single, nonempty⟩
    rw [split single.2, Path.splitName_append single.1, if_neg nonempty]
    simp

/-- The file that a name finds in a directory shows its extension: the name has it, or it was written
after the name, is a single one and follows a name. -/
def Shows (files : FileTree) (directory : Path) (name extension : String) : Prop :=
  files.isFile (directory.join name) = true ∧
      (directory.join name).extension?.getD "" = extension ∨
    ('.' ∉ extension.toList ∧ '/' ∉ extension.toList) ∧
      name ≠ "" ∧ name.toList.getLast? ≠ some '/'

theorem find?_extension {extension : String} (h : FileType.find? types extension = some type) :
    type.extension = extension := by
  simpa using List.find?_some h

/-- The first type whose extension leads to a file is the first one with this extension, since an
earlier one would have found the same file. -/
theorem find?_of_extended (first : types.find? (files.isFile <| extended p ·) = some type) :
    FileType.find? types type.extension = some type := by
  obtain ⟨file, before, after, split, earlier⟩ := List.find?_eq_some_iff_append.mp first
  refine List.find?_eq_some_iff_append.mpr ⟨by simp, before, after, split, fun other mem => ?_⟩
  simp only [Bool.not_eq_true', decide_eq_false_iff_not]
  intro same
  have found : files.isFile (extended p other) = true := by
    rw [extended, same]
    exact file
  simpa [found] using earlier other mem

/-- A file that is not known by its name has the extension of no type. -/
theorem extension_ne_of_unnamed (unnamed : asNamed? files p types = none)
    (file : files.isFile p = true) (mem : type ∈ types) :
    p.extension?.getD "" ≠ type.extension := by
  intro same
  rw [asNamed?, if_pos file, Option.map_eq_none_iff, FileType.find?, List.find?_eq_none] at unnamed
  simpa [same] using unnamed type mem

/-- The type of a file that was resolved is the first one with its extension, and the name of the file
has this extension exactly if it shows it. -/
theorem settles_of_resolve (plain : '\x00' ∉ files.base.chars)
    (h : resolve files name directory types = .ok f) :
    (∃ p, Settles files p f.path) ∧ FileType.find? types f.type.extension = some f.type ∧
      (f.path.extension?.getD "" = f.type.extension ↔
        Shows files directory name f.type.extension) := by
  rcases resolve_eq_ok.mp h with named | ⟨unnamed, extended'⟩
  · unfold asNamed? at named
    split at named
    · next file =>
      obtain ⟨type, first, rfl⟩ := Option.map_eq_some_iff.mp named
      have settles := settles_located plain file type
      have same : type.extension = _ := find?_extension first
      have here : (located files (directory.join name) type).type = type := rfl
      rw [here, settles.extension, same]
      exact ⟨⟨_, settles⟩, first, iff_of_true rfl (.inl ⟨file, rfl⟩)⟩
    · cases named
  · obtain ⟨type, first, rfl⟩ := Option.map_eq_some_iff.mp extended'
    have file : files.isFile (extended (directory.join name) type) = true := by
      simpa using List.find?_some first
    have settles := settles_located plain file type
    have here : (located files (extended (directory.join name) type) type).type = type := rfl
    rw [here]
    have unknown : ¬(files.isFile (directory.join name) = true ∧
        (directory.join name).extension?.getD "" = type.extension) := fun ⟨file, same⟩ =>
      extension_ne_of_unnamed unnamed file (List.mem_of_find?_eq_some first) same
    refine ⟨⟨_, settles⟩, find?_of_extended first, ?_⟩
    rw [settles.extension, extension_extended_iff file, Shows, or_iff_right unknown, ne_eq,
      Path.getLast?_pieces_join, not_or]

/-- An absolute path stands for itself in every directory. -/
theorem join_absolute (h : q.isAbsolute = true) (directory : Path) : directory.join q.text = q :=
  if_pos h

/-- With an extension written after it, the path of a file leads back to the file only by a slash. -/
theorem slash_mem_of_back (plain : '\x00' ∉ files.base.chars) (file : files.isFile q = true)
    (longer : files.isFile (extended q type) = true)
    (back : (located files (extended q type) type).path = q) : '/' ∈ type.extension.toList := by
  refine Decidable.byContradiction fun slashless => ?_
  have same := (settles_located plain longer type).fileName
  obtain ⟨s, last, -, name⟩ := FileTree.last_of_isFile file
  obtain ⟨s', last', -, name'⟩ := FileTree.last_of_isFile longer
  rw [getLast?_pieces_extended last slashless] at last'
  rw [back, name, name', ← Option.some.inj last', Option.some.injEq, String.ofList_inj] at same
  simp at same

/-- **Resolving again.** A name that shows the extension of the file it is resolved to can be replaced
by the path of the file: that is resolved to the same file in every directory, and so is every other
name of the path that shows its extension. No other name can, unless the extension holds a slash. A file
tree has no symbolic links: through a link, a name may show an extension that the path of the file does
not show. -/
theorem resolve_again (plain : '\x00' ∉ files.base.chars)
    (h : resolve files name directory types = .ok f) :
    f.path.isAbsolute = true ∧
    (Shows files directory name f.type.extension →
      (∀ d, resolve files f.path.text d types = .ok f) ∧
      ∀ name' d g, resolve files name' d types = .ok g → Shows files d name' g.type.extension →
        g.path = f.path → g = f) ∧
    ∀ d, resolve files f.path.text d types = .ok f →
      Shows files directory name f.type.extension ∨ '/' ∈ f.type.extension.toList := by
  obtain ⟨⟨p, settles⟩, first, shows_iff⟩ := settles_of_resolve plain h
  have named : asNamed? files f.path types = _ := settles.asNamed? types
  refine ⟨settles.absolute, fun shows => ⟨fun d => ?_, fun name' d g h' shows' same => ?_⟩,
    fun d again => ?_⟩
  · rw [resolve_eq_ok, join_absolute settles.absolute, named, shows_iff.mpr shows, first]
    exact .inl rfl
  · obtain ⟨-, first', shows_iff'⟩ := settles_of_resolve plain h'
    -- both names show their extension, and the two paths are one
    have extensions : g.type.extension = f.type.extension := by
      rw [← shows_iff'.mpr shows', same, shows_iff.mpr shows]
    rw [extensions, first] at first'
    cases f
    cases g
    simp only [Option.some.injEq] at first' same
    rw [first', same]
  · rw [resolve_eq_ok, join_absolute settles.absolute] at again
    -- the path is found as it is, or under a longer name with the extension once more
    rcases again with found | ⟨-, found⟩
    · rw [named] at found
      obtain ⟨type, known, path⟩ := Option.map_eq_some_iff.mp found
      obtain rfl : type = f.type := congrArg ProjectFile.type path
      exact .inl (shows_iff.mp (find?_extension known).symm)
    · obtain ⟨type, known, longer⟩ := Option.map_eq_some_iff.mp found
      obtain rfl : type = f.type := congrArg ProjectFile.type longer
      have file : files.isFile (extended f.path f.type) = true := by
        simpa using List.find?_some known
      exact .inr (slash_mem_of_back plain settles.isFile file (congrArg ProjectFile.path longer))

/-- A document is found by its name without the extension and by its path. -/
theorem resolve_again_document :
    let files := FileTree.ofTexts [("doc.tex", ""), ("doc.dtx", "")]
    let f : ProjectFile := .ofName "doc.tex"
    '\x00' ∉ files.base.chars ∧ resolve files "./doc" ⟨"/"⟩ FileType.defaults = .ok f ∧
      Shows files ⟨"/"⟩ "./doc" f.type.extension ∧
      ∀ d, resolve files "/doc.tex" d FileType.defaults = .ok f := by
  intro files f
  have plain : '\x00' ∉ files.base.chars := by decide +kernel
  have found : resolve files "./doc" ⟨"/"⟩ FileType.defaults = .ok f :=
    resolve_eq_ok.mpr (.inr ⟨by decide +kernel, by decide +kernel⟩)
  have shows : Shows files ⟨"/"⟩ "./doc" f.type.extension := .inr (by decide +kernel)
  have path : f.path.text = "/doc.tex" := by decide +kernel
  exact ⟨plain, found, shows, path ▸ ((resolve_again plain found).2.1 shows).1⟩

/-- An extension with a dot is not found in the name again: whether it is written or left out decides
on the type, and on whether the file is found at all. -/
theorem resolve_dotted :
    let files := FileTree.ofTexts [("doc.src.tex", "")]
    ∃ src tex, FileType.compile? "src.tex" "^%%" = some src ∧
      FileType.compile? "tex" "^%" = some tex ∧ src.pattern ≠ tex.pattern ∧
      resolve files "doc" ⟨"/"⟩ [src, tex] = .ok ⟨⟨"/doc.src.tex"⟩, src⟩ ∧
      resolve files "/doc.src.tex" ⟨"/"⟩ [src, tex] = .ok ⟨⟨"/doc.src.tex"⟩, tex⟩ ∧
      resolve files "doc" ⟨"/"⟩ [src] = .ok ⟨⟨"/doc.src.tex"⟩, src⟩ ∧
      ∀ f, resolve files "/doc.src.tex" ⟨"/"⟩ [src] ≠ .ok f := by
  let typeOf (extension pattern : String) : FileType :=
    (FileType.compile? extension pattern).getD ⟨extension, ⟨"", .empty⟩⟩
  refine ⟨typeOf "src.tex" "^%%", typeOf "tex" "^%", by decide +kernel, by decide +kernel,
    by decide +kernel, resolve_eq_ok.mpr (.inr (by decide +kernel)),
    resolve_eq_ok.mpr (.inl (by decide +kernel)), resolve_eq_ok.mpr (.inr (by decide +kernel)),
    fun f found => ?_⟩
  have missing : asNamed? (.ofTexts [("doc.src.tex", "")]) ⟨"/doc.src.tex"⟩
        [typeOf "src.tex" "^%%"] = none ∧
      asExtended? (.ofTexts [("doc.src.tex", "")]) ⟨"/doc.src.tex"⟩
        [typeOf "src.tex" "^%%"] = none := by decide +kernel
  rcases resolve_eq_ok.mp found with named | ⟨-, longer⟩
  · exact absurd (missing.1.symm.trans named) nofun
  · exact absurd (missing.2.symm.trans longer) nofun

end ProjectFile

end DirectiveRunner
