import DirectiveRunner.Command
import DirectiveRunner.Dict
import DirectiveRunner.Text.Blank
import DirectiveRunner.Text.Digits
/-!
# Values

The values that directives carry and expressions yield. A map keeps its entries in the order of its
keys, each key once. `flatten` gives the leaves of nested lists in order, so it is the same for all
nestings of the same leaves (`flatten_list`).
-/

namespace DirectiveRunner

/-- A value of an expression. -/
inductive Value where
  | null
  | bool (b : Bool)
  | int (n : Int64)
  | str (s : String)
  | list (items : List Value)
  /-- A map, its entries in the order of the keys. -/
  | map (entries : List (String × Value))
  | command (c : CommandLine)
deriving Repr, Inhabited

namespace Value

mutual

def decEq : (v w : Value) → Decidable (v = w)
  | .null, .null => isTrue rfl
  | .bool a, .bool b => decidable_of_iff (a = b) (by simp)
  | .int a, .int b => decidable_of_iff (a = b) (by simp)
  | .str a, .str b => decidable_of_iff (a = b) (by simp)
  | .command a, .command b => decidable_of_iff (a = b) (by simp)
  | .list a, .list b =>
    match decEqList a b with
    | isTrue h => isTrue (by rw [h])
    | isFalse h => isFalse (by simpa using h)
  | .map a, .map b =>
    match decEqEntries a b with
    | isTrue h => isTrue (by rw [h])
    | isFalse h => isFalse (by simpa using h)
  | .null, .bool _ | .null, .int _ | .null, .str _ | .null, .list _ | .null, .map _
  | .null, .command _ | .bool _, .null | .bool _, .int _ | .bool _, .str _ | .bool _, .list _
  | .bool _, .map _ | .bool _, .command _ | .int _, .null | .int _, .bool _ | .int _, .str _
  | .int _, .list _ | .int _, .map _ | .int _, .command _ | .str _, .null | .str _, .bool _
  | .str _, .int _ | .str _, .list _ | .str _, .map _ | .str _, .command _ | .list _, .null
  | .list _, .bool _ | .list _, .int _ | .list _, .str _ | .list _, .map _ | .list _, .command _
  | .map _, .null | .map _, .bool _ | .map _, .int _ | .map _, .str _ | .map _, .list _
  | .map _, .command _ | .command _, .null | .command _, .bool _ | .command _, .int _
  | .command _, .str _ | .command _, .list _ | .command _, .map _ => isFalse nofun
termination_by structural v => v

def decEqList : (vs ws : List Value) → Decidable (vs = ws)
  | [], [] => isTrue rfl
  | v :: vs, w :: ws =>
    match decEq v w, decEqList vs ws with
    | isTrue h, isTrue hs => isTrue (by rw [h, hs])
    | isFalse h, _ => isFalse fun e => h (List.cons.inj e).1
    | _, isFalse hs => isFalse fun e => hs (List.cons.inj e).2
  | [], _ :: _ | _ :: _, [] => isFalse nofun
termination_by structural vs => vs

def decEqEntries : (es fs : List (String × Value)) → Decidable (es = fs)
  | [], [] => isTrue rfl
  | (k, v) :: es, (l, w) :: fs =>
    match decEq v w, decEqEntries es fs with
    | isTrue h, isTrue hs =>
      if hk : k = l then isTrue (by rw [h, hs, hk])
      else isFalse fun e => hk (Prod.mk.inj (List.cons.inj e).1).1
    | isFalse h, _ => isFalse fun e => h (Prod.mk.inj (List.cons.inj e).1).2
    | _, isFalse hs => isFalse fun e => hs (List.cons.inj e).2
  | [], _ :: _ | _ :: _, [] => isFalse nofun
termination_by structural es => es

end

instance : DecidableEq Value := decEq

def typeName : Value → String
  | null => "null"
  | bool _ => "boolean"
  | int _ => "integer"
  | str _ => "string"
  | list _ => "list"
  | map _ => "map"
  | command _ => "command"

def asBool? : Value → Option Bool
  | bool b => some b
  | _ => none

def asText? : Value → Option String
  | str s => some s
  | _ => none

def isEmpty : Value → Bool
  | null => true
  | str s => s.isEmpty
  | list items => items.isEmpty
  | map entries => entries.isEmpty
  | command c => c.arguments.isEmpty
  | bool _ | int _ => false

/-- Whether a value is nothing, or a text of blanks. -/
def isBlank : Value → Bool
  | null => true
  | str s => isBlankText s
  | _ => false

mutual

/-- The leaves of nested lists; a value that is no list is its own leaf. -/
def flatten : Value → List Value
  | list items => flattenAll items
  | null => [null]
  | bool b => [bool b]
  | int n => [int n]
  | str s => [str s]
  | map es => [map es]
  | command c => [command c]
termination_by structural v => v

def flattenAll : List Value → List Value
  | [] => []
  | v :: vs => flatten v ++ flattenAll vs
termination_by structural vs => vs

end

mutual

def text : Value → String
  | null => ""
  | bool true => "true"
  | bool false => "false"
  | int n => showInt n.toInt
  | str s => s
  | list items => "[" ++ joined ", " (texts items) ++ "]"
  | map entries => "\x7b" ++ joined ", " (entryTexts entries) ++ "\x7d"
  | command c => c.text
termination_by structural v => v

def texts : List Value → List String
  | [] => []
  | v :: vs => text v :: texts vs
termination_by structural vs => vs

def entryTexts : List (String × Value) → List String
  | [] => []
  | (k, v) :: es => (k ++ "=" ++ text v) :: entryTexts es
termination_by structural es => es

end

theorem flattenAll_eq (vs : List Value) : flattenAll vs = vs.flatMap flatten := by
  induction vs with
  | nil => rfl
  | cons v vs ih => rw [flattenAll, ih]; rfl

theorem flatten_list (items : List Value) : (list items).flatten = items.flatMap flatten := by
  rw [flatten, flattenAll_eq]

end Value

/-- Named values. -/
abbrev Bindings := List (String × Value)

end DirectiveRunner
