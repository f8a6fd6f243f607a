import Stencil.Table

/-!
# The store

Lists, dicts and sets live in a store and are reached by reference.  New cells are added at the end,
so a reference stays good for ever.  A list knows how many loops are running over it; while there are
any, it cannot be changed.  Dicts and sets are tables.

`Act` is the type of steps that work on a store and may fail.  A step that fails keeps what it did
to the store.
-/

namespace Stencil

structure ListCell where
  items : List Value
  loops : Nat

structure Store where
  lists : Array ListCell
  dicts : Array Table
  sets : Array Table
  handles : Nat
  copies : Nat

inductive TableRef
  | dict (ref : Nat)
  | set (ref : Nat)
  deriving DecidableEq, Repr

abbrev Act (α : Type) := EStateM Failure Store α

namespace Store

def empty : Store := ⟨#[], #[], #[], 0, 0⟩

def size (s : Store) : Nat := s.lists.size + s.dicts.size + s.sets.size

def listCell (s : Store) (r : Nat) : ListCell := (s.lists[r]?).getD ⟨[], 0⟩

def list (s : Store) (r : Nat) : List Value := (s.listCell r).items

def table (s : Store) : TableRef → Table
  | .dict r => (s.dicts[r]?).getD (.filled [])
  | .set r => (s.sets[r]?).getD (.filled [])

def dict (s : Store) (r : Nat) : Entries := (s.table (.dict r)).entries

def set (s : Store) (r : Nat) : List Value := (s.table (.set r)).keys

def setListCell (s : Store) (r : Nat) (c : ListCell) : Store :=
  { s with lists := s.lists.setIfInBounds r c }

def setTable (s : Store) (ref : TableRef) (t : Table) : Store :=
  match ref with
  | .dict r => { s with dicts := s.dicts.setIfInBounds r t }
  | .set r => { s with sets := s.sets.setIfInBounds r t }

end Store

/-! ## Steps -/

namespace Act

def complain {α : Type} (text : String) : Act α := throw (.plain text)

def newList (items : List Value) : Act Value := do
  let s ← get
  let r := s.lists.size
  set { s with lists := s.lists.push ⟨items, 0⟩ }
  return .list r

def addDict (t : Table) : Act Value := do
  let s ← get
  let r := s.dicts.size
  set { s with dicts := s.dicts.push t }
  return .dict r

def newDict (es : Entries) : Act Value := addDict (.ready es)

def addSet (t : Table) : Act Value := do
  let s ← get
  let r := s.sets.size
  set { s with sets := s.sets.push t }
  return .set r

def newSet (items : List Value) : Act Value :=
  addSet (.ready (Entries.merge [] (items.map fun v => (v, .null))))

def ofExcept {α : Type} (e : Except Failure α) : Act α :=
  match e with
  | .ok a => return a
  | .error f => throw f

def listItems (r : Nat) : Act (List Value) := return (← get).list r

def dictEntries (r : Nat) : Act Entries := return (← get).dict r

def table (ref : TableRef) : Act Table := return (← get).table ref

def putTable (ref : TableRef) (t : Table) : Act Unit := modify fun s => s.setTable ref t

def alter (ref : TableRef) (change : Table → Table × Option Failure) : Act Unit := do
  let (t, failure) := change (← table ref)
  putTable ref t
  match failure with
  | some f => throw f
  | none => return ()

def putDict (r : Nat) (es : Entries) : Act Unit := do
  let t ← table (.dict r)
  putTable (.dict r) ⟨es, t.isBlank && es.isEmpty⟩

def lookup (r : Nat) (key : Value) : Act (Option Value) := do ofExcept ((← table (.dict r)).find key)

def store (r : Nat) (key value : Value) : Act Unit := alter (.dict r) (·.put key value)

def newHandle : Act Nat := do
  let s ← get
  set { s with handles := s.handles + 1 }
  return s.handles

def handle (o : Object) : Act Value := return .object (← newHandle) o

def handleOfCopy (o : Object) : Act Value := do
  let s ← get
  set { s with copies := s.copies + 1 }
  handle { o with sameness := .place (.copy s.copies) }

end Act
end Stencil
