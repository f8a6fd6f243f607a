import Stencil.Node

/-!
# Trees on paper

`Node.outline` writes a tree with one node a line, children indented below their parent and
attributes in the order of their names.

`Node.walk` lists the nodes of a tree depth first.  It can be told not to look below some nodes, and
to stop at one.
-/

namespace Stencil

open Text (quoted)

def Attr.show : Attr → String
  | null => "<nil>"
  | bool b => if b then "true" else "false"
  | int i => toString i
  | float f => Decimal.general f
  | text s => quoted s
  | foreign typeName => typeName

namespace Node

def shownAttrs (attrs : List (String × Attr)) : String :=
  let sorted := attrs.mergeSort fun a b => a.1 ≤ b.1
  String.join (sorted.map fun (key, value) => " " ++ key ++ "=" ++ value.show)

def margin (width : Nat) : String := String.ofList (List.replicate width ' ')

mutual

def outlineAt (width : Nat) : Node → String
  | absent => margin width ++ "<nil>\n"
  | node kind line _ attrs children =>
    margin width ++ kind.name ++ shownAttrs attrs ++ s!" @{line}\n" ++
      outlineAll (width + 2) children

def outlineAll (width : Nat) : List Node → String
  | [] => ""
  | n :: ns => outlineAt width n ++ outlineAll width ns

end

def outline (n : Node) : String := outlineAt 0 n

/-! ## Walking -/

/-- The nodes met by a walk, and whether it was stopped at the last of them. -/
structure Walk where
  met : List Node
  stopped : Bool

mutual

/-- Walks depth first, not looking below nodes that `skip` accepts and stopping at one that `stop`
accepts. -/
def walk (skip stop : Node → Bool) : Node → Walk
  | absent => ⟨[], false⟩
  | node k l t as cs =>
    let n := node k l t as cs
    if stop n then ⟨[n], true⟩
    else if skip n then ⟨[n], false⟩
    else
      let below := walkAll skip stop cs
      ⟨n :: below.met, below.stopped⟩

def walkAll (skip stop : Node → Bool) : List Node → Walk
  | [] => ⟨[], false⟩
  | n :: ns =>
    let first := walk skip stop n
    if first.stopped then first
    else
      let rest := walkAll skip stop ns
      ⟨first.met ++ rest.met, rest.stopped⟩

end

def nodes (n : Node) : List Node := (n.walk (fun _ => false) (fun _ => false)).met

def tagged (n : Node) : List Node := n.nodes.filter fun m => !m.tag.isEmpty

end Node
end Stencil
