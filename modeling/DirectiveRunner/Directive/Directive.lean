import DirectiveRunner.Value
/-!
# Directives

A directive asks for a rule by its identifier, with parameters and, possibly, a condition under which
it is run or repeated. The parameter `reference` names the file a directive applies to; it is not
written in the source but attached to the directive (`referenceKey`).
-/

namespace DirectiveRunner

/-- The parameter that names the file a directive applies to. -/
def referenceKey : String := "reference"

/-- The parameter that asks for one copy of a directive for each of several files. -/
def filesKey : String := "files"

/-- How a directive is guarded or repeated. -/
inductive Conditional where
  | none
  | onlyIf (e : String)
  | unless (e : String)
  /-- Run, and again while the expression holds. -/
  | while (e : String)
  /-- Run, and again until the expression holds. -/
  | until (e : String)
deriving DecidableEq, Repr, Inhabited

namespace Conditional

/-- The conditional of a keyword and an expression. -/
def ofKeyword? (keyword e : String) : Option Conditional :=
  if keyword = "if" then some (onlyIf e)
  else if keyword = "unless" then some (.unless e)
  else if keyword = "while" then some (.while e)
  else if keyword = "until" then some (.until e)
  else Option.none

/-- The keyword and the expression of a conditional. -/
def parts? : Conditional → Option (String × String)
  | none => Option.none
  | onlyIf e => some ("if", e)
  | .unless e => some ("unless", e)
  | .while e => some ("while", e)
  | .until e => some ("until", e)

def text (c : Conditional) : String :=
  match c.parts? with
  | Option.none => "none"
  | some (keyword, e) => keyword ++ " " ++ e

theorem ofKeyword?_eq_some_iff {keyword e : String} {c : Conditional} :
    ofKeyword? keyword e = some c ↔ c.parts? = some (keyword, e) := by
  constructor
  · unfold ofKeyword?
    repeat' split
    all_goals rintro ⟨⟩
    all_goals simp_all [parts?]
  · cases c <;> simp only [parts?, Option.some.injEq, Prod.mk.injEq, reduceCtorEq, false_imp_iff]
    all_goals rintro ⟨rfl, rfl⟩; rfl

end Conditional

/-- A directive of a source text. -/
structure Directive where
  /-- The rule it asks for. -/
  identifier : String
  parameters : Bindings := []
  conditional : Conditional := .none
  /-- The lines it was read from, counted from one. -/
  lineNumbers : List Nat := []
deriving DecidableEq, Repr, Inhabited

namespace Directive

/-- The first line of a directive. -/
def line (d : Directive) : Nat := d.lineNumbers.headD 0

/-- The file a directive applies to, if it is attached. -/
def reference? (d : Directive) : Option Value := Dict.lookup referenceKey d.parameters

end Directive

end DirectiveRunner
