/-!
# Data of TOML

The values of a TOML document, and how its lines put tables together. A table is opened once by a
header; tables that only lead to others, and tables made by dotted keys, can still get entries of
their own kind, and inline tables and arrays are closed.
-/

namespace DirectiveRunner.Toml

/-- How a table came about. -/
inductive TableKind where
  /-- By a header of its own. -/
  | opened
  /-- By the header of a table inside it. -/
  | implied
  /-- By a dotted key. -/
  | dotted
  | inline
deriving DecidableEq, Repr

/-- A value. -/
inductive Data where
  | str (s : String)
  | int (n : Int)
  | bool (b : Bool)
  /-- A number with a fraction, a date or a time. -/
  | other
  /-- An array; an array of tables may be added to. -/
  | array (ofTables : Bool) (items : List Data)
  /-- A table, its entries in the order in which they are written. -/
  | table (kind : TableKind) (entries : List (String × Data))
deriving Repr, Inhabited

abbrev Entries := List (String × Data)

def replace (key : String) (d : Data) (es : Entries) : Entries :=
  es.map fun e => if e.1 = key then (key, d) else e

/-- Changes the table that a path leads to from a table; tables that do not exist are made. Dotted keys
must not go through tables that have a header. -/
def descend (dotted : Bool) (change : TableKind → Entries → Option (TableKind × Entries)) :
    List String → TableKind → Entries → Option (TableKind × Entries)
  | [], kind, es => change kind es
  | key :: path, kind, es =>
    match es.lookup key with
    | none => do
      let (k, t) ← descend dotted change path (if dotted then .dotted else .implied) []
      return (kind, es ++ [(key, .table k t)])
    | some (.table k t) =>
      -- a table between braces is complete, and one with a header is added to under its header only
      if k = .inline || (dotted && k = .opened) then none
      else do
        let (k, t) ← descend dotted change path k t
        return (kind, replace key (.table k t) es)
    | some (.array true items) =>
      match items.getLast? with
      | some (.table k t) =>
        if dotted && k = .opened then none
        else do
          let (k, t) ← descend dotted change path k t
          return (kind, replace key (.array true (items.dropLast ++ [.table k t])) es)
      | _ => none
    | some _ => none

/-- Adds an entry, whose key may be dotted, to a table. -/
def addEntry (path : List String) (key : String) (d : Data) (kind : TableKind) (es : Entries) :
    Option (TableKind × Entries) :=
  descend true (fun k t =>
    if (t.lookup key).isSome || decide (k = .dotted) == path.isEmpty then none
    else some (k, t ++ [(key, d)])) path kind es

/-- Opens the table of a header in the table around it. -/
def openTable (key : String) (kind : TableKind) (es : Entries) : Option (TableKind × Entries) :=
  match es.lookup key with
  | none => some (kind, es ++ [(key, .table .opened [])])
  | some (.table .implied t) => some (kind, replace key (.table .opened t) es)
  | some _ => none

/-- Adds a table to the array of a header in the table around it. -/
def openElement (key : String) (kind : TableKind) (es : Entries) : Option (TableKind × Entries) :=
  match es.lookup key with
  | none => some (kind, es ++ [(key, .array true [.table .opened []])])
  | some (.array true items) =>
    some (kind, replace key (.array true (items ++ [.table .opened []])) es)
  | some _ => none

end DirectiveRunner.Toml
