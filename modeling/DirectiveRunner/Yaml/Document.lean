import DirectiveRunner.Yaml.Parse
/-!
# Resolved documents

A document in which every alias has been replaced by what it stands for. Collections may not nest
deeper than `depthLimit`, which also refuses a node that holds an alias of itself, and aliases may not
be followed more than a hundred times as often as the document has events.
-/

namespace DirectiveRunner.Yaml

inductive Document where
  | scalar (tag : Option (List Char)) (plain : Bool) (text : List Char)
  | sequence (tag : Option (List Char)) (items : List Document)
  | mapping (tag : Option (List Char)) (entries : List (Document × Document))
deriving Repr, Inhabited

/-- How deep collections may nest. -/
def depthLimit : Nat := 128

/-- The state of resolving: how many more aliases may be followed. -/
abbrev Resolving := StateT Nat Option

def followAlias : Resolving Unit := fun left =>
  match left with
  | 0 => none
  | n + 1 => some ((), n)

/-- The document of a node, where `target?` gives the nodes of anchors and collections may nest as
deep as `depth`. -/
def resolveNode (target? : Nat → Option Node) (depth : Nat) (n : Node) : Resolving Document := do
  let n ←
    match n with
    | .alias id => do
      followAlias
      match target? id with
      | some n => pure n
      | none => failure
    | n => pure n
  match n, depth with
  | .scalar tag plain text, _ => return .scalar tag plain text
  | .sequence tag items, d + 1 => return .sequence tag (← items.mapM (resolveNode target? d))
  | .mapping tag entries, d + 1 =>
    return .mapping tag (← entries.mapM fun e => do
      let k ← resolveNode target? d e.1
      let v ← resolveNode target? d e.2
      return (k, v))
  | _, _ => failure

/-- The document of a text; none inside if the text holds no document. -/
def load? (cs : List Char) : Option (Option Document) := do
  let tokens ← tokens? cs
  let (root, p) ← Parser.document.run { tokens }
  match root with
  | none => return none
  | some root =>
    let target? (id : Nat) : Option Node :=
      (p.starts.lookup id).bind fun serial => p.complete.lookup serial
    let (d, _) ← (resolveNode target? depthLimit root).run (100 * p.events)
    return some d

end DirectiveRunner.Yaml
