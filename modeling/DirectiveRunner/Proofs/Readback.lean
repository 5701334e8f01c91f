import DirectiveRunner.Helper.Registry
import DirectiveRunner.Proofs.Agreement
import DirectiveRunner.Proofs.Execution
/-!
# Lines that are written are read back

`writeToFile` ends each line with a line feed and `readFromFile` cuts a text at its line feeds, so
lines without line feeds come back as they were. This holds of any number of calls that write to one
file (`readFromFile_writeAll`): what the file holds is the lines of all calls so far (`Holds`), which
each call keeps up, and the file stays where it is, under whatever name it is written to.
-/

namespace DirectiveRunner.Helper

open Text (unlines lines)

/-- Calls of `writeToFile`, each with the name of a file and a list of values. The first one writes
the file anew unless `append`, and the others add to it. -/
def writeAll (append : Bool) : List (Value × List Value) → Action EvalError (List Value)
  | [] => pure []
  | (name, vs) :: calls => do
    let done ← call "writeToFile" [name, .list vs, .bool append]
    return done :: (← writeAll true calls)

/-- The lines that a list of values is written as. -/
def linesOfValues (vs : List Value) : List (List Char) := vs.map fun v => v.text.toList

/-- A value is the name of a file at a location, which can be written. -/
def Names (s : Setting) (files : FileTree) (l : Location) (name : Value) : Prop :=
  ∃ text, (name = .str text ∨ ∃ n, name = .int n ∧ text = showInt n.toInt) ∧
    files.writable (resolvePath s text) = .ok l

/-- The file at a location holds some lines, each ended by a line feed. -/
def Holds (files : FileTree) (l : Location) (ls : List (List Char)) : Prop :=
  files.node? l = some (.file (Text.Utf8.encode (.ofList (unlines ls))))

variable {s : Setting} {w : World} {l : Location} {files : FileTree} {name : Value}
  {vs : List Value} {ls : List (List Char)} {calls : List (Value × List Value)}

/-! ## One call -/

theorem textArg_of_names {text : String} (named : name = .str text ∨
      ∃ n, name = .int n ∧ text = showInt n.toInt) (function : String) (args : List Value) :
    textArg function (name :: args) 0 = .ok text := by
  rcases named with rfl | ⟨n, rfl, rfl⟩ <;> rfl

theorem writtenText_list (vs : List Value) :
    writtenText (.list vs) = .ofList (unlines (linesOfValues vs)) := by
  rw [← String.toList_inj]
  simp [writtenText, String.toList_join, unlines, linesOfValues, List.flatMap_map]

theorem unlines_append (ls ls' : List (List Char)) :
    unlines (ls ++ ls') = unlines ls ++ unlines ls' :=
  List.flatMap_append

theorem encode_append (a b : String) :
    Text.Utf8.encode (a ++ b) = Text.Utf8.encode a ++ Text.Utf8.encode b :=
  String.toByteArray_append

/-- What a file holds at a location; nothing if there is none. -/
def contents (files : FileTree) (l : Location) : ByteArray :=
  match files.node? l with
  | some (.file bytes) => bytes
  | _ => .empty

/-- A call tells whether the file could be written, and changes nothing else. -/
theorem run_call_writeToFile {text : String} {v : Value} {append : Bool}
    (named : textArg "writeToFile" [name, v, .bool append] 0 = .ok text) :
    (call "writeToFile" [name, v, .bool append]).run s w =
      match (if append then w.files.append (resolvePath s text) (Text.Utf8.encode (writtenText v))
        else w.files.write (resolvePath s text) (Text.Utf8.encode (writtenText v))) with
      | .ok files => (.ok (.bool true), { w with files })
      | .error _ => (.ok (.bool false), w) := by
  show (writeToFile [name, v, .bool append]).run s w = _
  have three : arity "writeToFile" [name, v, .bool append] 3 3 = .ok () := rfl
  have last : boolArg "writeToFile" [name, v, .bool append] 2 = .ok append := rfl
  simp only [writeToFile, three, named, last, Action.run_bind, Action.run_ofExcept,
    Action.run_setting, Action.run_world]
  show (match (if append then w.files.append (resolvePath s text) (Text.Utf8.encode (writtenText v))
        else w.files.write (resolvePath s text) (Text.Utf8.encode (writtenText v))) with
      | .ok files => do
        Action.setFiles files
        return Value.bool true
      | .error _ => return Value.bool false : Action EvalError Value).run s w = _
  split <;> rfl

/-- A call writes the lines after what the file holds, or in place of it. -/
theorem call_writeToFile {text : String} (named : name = .str text ∨
      ∃ n, name = .int n ∧ text = showInt n.toInt)
    (writable : w.files.writable (resolvePath s text) = .ok l) (append : Bool) :
    (call "writeToFile" [name, .list vs, .bool append]).run s w =
      (.ok (.bool true), { w with files := w.files.put l (.file
        ((if append then contents w.files l else .empty) ++
          Text.Utf8.encode (.ofList (unlines (linesOfValues vs))))) }) := by
  rw [run_call_writeToFile (textArg_of_names named "writeToFile" _), ← writtenText_list]
  cases append with
  | false => simp [FileTree.write, writable, bind, Except.bind, pure, Except.pure]
  | true =>
    simp only [FileTree.append, writable, bind, Except.bind, pure, Except.pure, if_true]
    rfl

/-- A file that can be written keeps its names when it is written. -/
theorem Names.put (h : Names s files l name) (bytes : ByteArray) :
    Names s (files.put l (.file bytes)) l name := by
  obtain ⟨text, named, writable⟩ := h
  have other := (FileTree.writable_eq_ok.mp writable).2.2
  have inner : l ≠ [] := fun root => other (root ▸ rfl)
  have file : (files.put l (.file bytes)).node? l ≠ some .directory := by
    simp [FileTree.node?_put_self inner]
  exact ⟨text, named,
    FileTree.writable_of_kept (t := files) rfl (FileTree.kept_put other _) file writable⟩

/-- A call adds its lines to those of the file, or to none if it writes the file anew. -/
theorem Names.call_holds (h : Names s w.files l name) (append : Bool) (ls : List (List Char))
    (holds : append = true → Holds w.files l ls) (vs : List Value) :
    ∃ w', (call "writeToFile" [name, .list vs, .bool append]).run s w = (.ok (.bool true), w') ∧
      Holds w'.files l ((if append then ls else []) ++ linesOfValues vs) ∧
      ∀ other, Names s w.files l other → Names s w'.files l other := by
  obtain ⟨text, named, writable⟩ := h
  have inner : l ≠ [] := fun root => (FileTree.writable_eq_ok.mp writable).2.2 (root ▸ rfl)
  refine ⟨_, call_writeToFile named writable append, ?_, fun other named => named.put _⟩
  have bytes : (if append then contents w.files l else .empty) =
      Text.Utf8.encode (.ofList (unlines (if append then ls else []))) := by
    cases append with
    | false => rfl
    | true =>
      have file : w.files.node? l = _ := holds rfl
      simp only [contents, file, if_true]
  rw [Holds, FileTree.node?_put_self inner, bytes, ← encode_append, ← String.ofList_append,
    unlines_append]

/-! ## All calls -/

/-- The calls are made in order. -/
theorem run_writeAll_cons {append : Bool} {c : Value × List Value} {w₁ w' : World} {done : Value}
    {dones : List Value}
    (called : (call "writeToFile" [c.1, .list c.2, .bool append]).run s w = (.ok done, w₁))
    (rest : (writeAll true calls).run s w₁ = (.ok dones, w')) :
    (writeAll append (c :: calls)).run s w = (.ok (done :: dones), w') := by
  simp only [writeAll, Action.run_bind, called, rest]
  rfl

/-- Calls that add to a file add their lines in order, and the file keeps its names. -/
theorem run_writeAll (holds : Holds w.files l ls) (named : ∀ c ∈ calls, Names s w.files l c.1) :
    ∃ w', (writeAll true calls).run s w = (.ok (calls.map fun _ => .bool true), w') ∧
      Holds w'.files l (ls ++ calls.flatMap fun c => linesOfValues c.2) ∧
      ∀ other, Names s w.files l other → Names s w'.files l other := by
  induction calls generalizing w ls with
  | nil => exact ⟨w, rfl, by simpa using holds, fun _ named => named⟩
  | cons c calls ih =>
    obtain ⟨first, later⟩ := List.forall_mem_cons.mp named
    obtain ⟨w₁, called, holds₁, kept₁⟩ := first.call_holds true ls (fun _ => holds) c.2
    obtain ⟨w', rest, holds', kept'⟩ := ih holds₁ fun c' mem => kept₁ _ (later c' mem)
    exact ⟨w', run_writeAll_cons called rest, by simpa using holds',
      fun other named => kept' other (kept₁ other named)⟩

/-- The lines of a file are read back, unless the line ends make others of them. -/
theorem Holds.call_readFromFile (holds : Holds w.files l ls) (named : Names s w.files l name)
    (plain : ∀ line ∈ ls, '\n' ∉ line ∧ line.getLast? ≠ some '\r') :
    (call "readFromFile" [name]).run s w =
      (.ok (.list (ls.map fun line => .str (.ofList line))), w) := by
  obtain ⟨text, named, writable⟩ := named
  have read : w.files.readText (resolvePath s text) = .ok (.ofList (unlines ls)) := by
    rw [FileTree.readText, FileTree.read_of_locate (FileTree.writable_eq_ok.mp writable).2.1, holds]
    simp [bind, Except.bind, Text.Utf8.decode?_encode]
  show (readFromFile s w [name], w) = _
  have one : arity "readFromFile" [name] 1 1 = .ok () := rfl
  simp [readFromFile, one, textArg_of_names named, bind, Except.bind, read, pure, Except.pure,
    linesOf, Text.lines_unlines plain]

/-- **Written lines.** Lists of values whose texts are lines are written to one file, the first list
in place of what was there and the others after it, under whatever names of the file. Then every call
tells that it went well, and what is read from the file are the texts of all the lists in order. -/
theorem readFromFile_writeAll {first : Value × List Value} {more : List (Value × List Value)}
    (named : ∀ c ∈ first :: more, Names s w.files l c.1) (read : Names s w.files l name)
    (plain : ∀ c ∈ first :: more, ∀ v ∈ c.2,
      '\n' ∉ v.text.toList ∧ v.text.toList.getLast? ≠ some '\r') :
    ∃ w', (writeAll false (first :: more)).run s w =
        (.ok ((first :: more).map fun _ => .bool true), w') ∧
      (call "readFromFile" [name]).run s w' =
        (.ok (.list ((first :: more).flatMap fun c => c.2.map fun v => .str v.text)), w') := by
  obtain ⟨here, later⟩ := List.forall_mem_cons.mp named
  obtain ⟨w₁, called, holds₁, kept₁⟩ := here.call_holds false [] nofun first.2
  -- the first call replaced the lines of the file, and the others append theirs
  obtain ⟨w', rest, holds', kept'⟩ := run_writeAll holds₁ fun c mem => kept₁ _ (later c mem)
  have read' : Names s w'.files l name := kept' _ (kept₁ _ read)
  refine ⟨w', run_writeAll_cons called rest, ?_⟩
  have lines : ([] ++ linesOfValues first.2) ++ (more.flatMap fun c => linesOfValues c.2) =
      (first :: more).flatMap fun c => linesOfValues c.2 := by simp
  rw [if_neg Bool.false_ne_true, lines] at holds'
  have plain' : ∀ line ∈ (first :: more).flatMap fun c => linesOfValues c.2,
      '\n' ∉ line ∧ line.getLast? ≠ some '\r' := by
    intro line mem
    obtain ⟨c, call, v, value, rfl⟩ : ∃ c ∈ first :: more, ∃ v ∈ c.2, v.text.toList = line := by
      simpa only [List.mem_flatMap, linesOfValues, List.mem_map] using mem
    exact plain c call v value
  rw [holds'.call_readFromFile read' plain', List.map_flatMap]
  simp only [linesOfValues, List.map_map, Function.comp_def, String.ofList_toList]

/-- A file that is there is written anew and then added to under other names of it: an empty line, no
line, a line of a list, and one with a carriage return inside. -/
theorem readFromFile_writeAll_sevenTwice :
    let s := Setting.ofDocument "doc.tex" true
    let w : World := { files := .ofTexts [("7", "gone")] }
    let first : Value × List Value := (.int 7, [.str "a", .str ""])
    let more : List (Value × List Value) :=
      [(.str "./7", []), (.str "//7", [.list [.int 1, .bool true], .str "b\rc"])]
    (∀ c ∈ first :: more, Names s w.files ["7"] c.1) ∧ Names s w.files ["7"] (.str "7") ∧
      ∃ w', (writeAll false (first :: more)).run s w =
          (.ok [.bool true, .bool true, .bool true], w') ∧
        (call "readFromFile" [.str "7"]).run s w' =
          (.ok (.list [.str "a", .str "", .str "[1, true]", .str "b\rc"]), w') := by
  intro s w first more
  have place (text : String)
      (located : (w.files.writable (resolvePath s text)).toOption = some ["7"]) :
      w.files.writable (resolvePath s text) = .ok ["7"] := by
    cases writable : w.files.writable (resolvePath s text) with
    | error e => simp [writable, Except.toOption] at located
    | ok l =>
      rw [writable] at located
      exact congrArg Except.ok (Option.some.inj located)
  have named : ∀ c ∈ first :: more, Names s w.files ["7"] c.1 := by
    simp only [first, more, List.forall_mem_cons, List.not_mem_nil, false_imp_iff, implies_true,
      and_true]
    exact ⟨⟨"7", .inr ⟨7, rfl, by decide +kernel⟩, place _ (by decide +kernel)⟩,
      ⟨"./7", .inl rfl, place _ (by decide +kernel)⟩,
      ⟨"//7", .inl rfl, place _ (by decide +kernel)⟩⟩
  have read : Names s w.files ["7"] (.str "7") := ⟨"7", .inl rfl, place _ (by decide +kernel)⟩
  exact ⟨named, read, readFromFile_writeAll named read (by decide +kernel)⟩

end DirectiveRunner.Helper
