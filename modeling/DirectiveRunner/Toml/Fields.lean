import DirectiveRunner.Toml.Data
/-!
# Reading fields of TOML data

Small readers for values, and for tables with known fields. An array may stand for a table: its
elements are then the values of all the fields in order.
-/

namespace DirectiveRunner.Toml

namespace Data

def text? : Data → Option String
  | .str s => some s
  | _ => none

def bool? : Data → Option Bool
  | .bool b => some b
  | _ => none

/-- The number of a value that is no negative integer. -/
def nat? : Data → Option Nat
  | .int n => if 0 ≤ n then some n.toNat else none
  | _ => none

def list? {α : Type} (f : Data → Option α) : Data → Option (List α)
  | .array _ items => items.mapM f
  | _ => none

/-- The fields of a table, or the elements of an array as the values of all the fields. -/
def fields? (names : List String) : Data → Option Entries
  | .table _ es => some es
  | .array _ items => if names.length ≤ items.length then some (names.zip items) else none
  | _ => none

end Data

/-- A field that is read by `f`, or has a value of its own if it is not there. -/
def field? {α : Type} (fields : Entries) (name : String) (f : Data → Option α)
    (otherwise : Option α) : Option α :=
  match fields.lookup name with
  | some d => f d
  | none => otherwise

/-- A field that need not be there. -/
def optional? {α : Type} (fields : Entries) (name : String) (f : Data → Option α) :
    Option (Option α) :=
  field? fields name (fun d => (f d).map some) (some none)

def onlyKnown (names : List String) (fields : Entries) : Bool := fields.all fun e => e.1 ∈ names

end DirectiveRunner.Toml
