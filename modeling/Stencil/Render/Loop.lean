import Stencil.Render.Eval

/-!
# The variables of a loop

A loop keeps its state in variables: `_parent` is a copy of all variables from before the loop,
`_seq` the list it goes through, `_iterated` whether there was a round, and `loop` a dict with the
number of the round and the like.  A template can change them, so every use of them may fail.

When a loop is left, the variables from before it come back, with the values they have now.  Those
of the loop itself are restored, and those that are new are dropped.
-/

namespace Stencil

namespace Loop

/-! ## Variables and items -/

def need (context : Nat) (name : String) : Act Value := do
  match (← Act.dictEntries context).get? (.text name) with
  | some v => return v
  | none => Act.complain ("key " ++ Text.quoted name ++ " not in dict")

def put (context : Nat) (name : String) (v : Value) : Act Unit := Act.store context (.text name) v

def item (v : Value) (key : String) : Act Value :=
  match v with
  | .dict r => need r key
  | .list _ | .tuple _ | .text _ => Act.complain s!"{v.type} index: got string, want int"
  | v => Act.complain s!"unhandled index operation {v.type}[string]"

def putItem (v : Value) (key : String) (x : Value) : Act Unit :=
  match v with
  | .dict r => put r key x
  | .list _ => Act.complain "got string, want int"
  | v => Act.complain s!"{v.type} value does not support item assignment"

def stepped (v : Value) (up : Bool) : Act Value :=
  match v with
  | .int i => return .int (if up then i + 1 else i - 1)
  | .float f => return .float (if up then f + 1.0 else f - 1.0)
  | v =>
    let op := if up then "+" else "-"
    Act.complain s!"unknown binary op: {v.type} {op} int"

/-- Counts an item of the variable `loop` up or down. -/
def bump (context : Nat) (key : String) (up : Bool) : Act Unit := do
  let loop ← need context "loop"
  putItem loop key (← stepped (← item loop key) up)

/-! ## Before, during and after -/

def save (context : Nat) : Act Unit := do
  put context "_parent" (← Act.addDict (.filled (← Act.dictEntries context)))

def addCount (context : Nat) : Act Unit := do
  let count : Int := ((← get).pairs (← need context "_seq")).length
  let loop ← need context "loop"
  putItem loop "length" (.int count)
  putItem loop "revindex0" (.int (count - 1))
  putItem loop "revindex" (.int count)
  putItem loop "last" (.bool (count == 1))

def start (context : Nat) (flags : LoopFlags) : Act Unit := do
  let parent ← need context "_parent"
  put context "loop" (← Act.newDict
    [(.text "parent", parent), (.text "index0", .int 0), (.text "index", .int 1),
     (.text "first", .bool true)])
  if !flags.conditional then addCount context

def enter (context : Nat) (flags : LoopFlags) (seq : Value) : Act Unit := do
  put context "_seq" (← Act.iterate seq)
  if flags.hasElse then put context "_iterated" (.bool false)
  if flags.withLoop then start context flags

def countDown (context : Nat) : Act Unit := do
  bump context "revindex0" false
  bump context "revindex" false
  let loop ← need context "loop"
  let left ← item loop "revindex0"
  putItem loop "last" (.bool (← Act.compare .eq left (.int 0)))

def count (context : Nat) (flags : LoopFlags) : Act Unit := do
  bump context "index0" true
  bump context "index" true
  putItem (← need context "loop") "first" (.bool false)
  if !flags.conditional then countDown context

def endRound (context : Nat) (flags : LoopFlags) : Act Unit := do
  if flags.hasElse then put context "_iterated" (.bool true)
  if flags.withLoop then count context flags

/-- Whether a value counts as true where a loop asks: every text but the empty one does. -/
def holds (s : Store) : Value → Bool
  | .text t => t != ""
  | v => s.truth v

def setLoops (v : Value) (change : Nat → Nat) : Act Unit :=
  match v with
  | .list r => modify fun s =>
    let c := s.listCell r
    s.setListCell r { c with loops := change c.loops }
  | _ => return ()

def ofPair : Value → Value × Value
  | .tuple [k, v] => (k, v)
  | v => (.null, v)

def ownNames (targets : List String) : List String :=
  ["_seq", "_iterated", "_parent", "loop"] ++ targets

def kept (s : Store) (parent : Entries) (now : Entries) : List (String × Value) :=
  (now.filter fun (k, _) => (parent.get? k).isSome).map fun (k, v) => ((s.view k).print, v)

def lastOf (name : String) (entries : List (String × Value)) : Option Value :=
  entries.reverse.lookup name

def restored (s : Store) (keep : List (String × Value)) (parent : Entries) : Entries :=
  parent.map fun (k, v) => (k, (lastOf (s.view k).print keep).getD v)

end Loop

def Scope.leaveScope (scope : Scope) (context : Nat) (targets : List String) : Act Unit := do
  match (← Act.dictEntries context).get? (.text "_parent") with
  | some (.dict p) => do
    let now := (Loop.ownNames targets).foldl (fun es name => Entries.erase (.text name) es)
      (← Act.dictEntries context)
    Act.putDict context now
    let keep := Loop.kept (← get) (← Act.dictEntries p) now
    Act.putDict context []
    Act.putDict context (Loop.restored (← get) keep (← Act.dictEntries p))
  | _ => scope.raise 0 .noSavedScope none

end Stencil
