import Stencil.Value

/-!
# Tables

Dicts and sets are tables: keys with values, in the order in which the keys came.  A set is a table
whose values are all null.

* Lists, dicts, sets and objects are no keys.  A tuple is a key when its items are.
* A key is found by comparing it with the keys that are there.  That fails for a tuple that is
  nested too deeply, unless its digest shows that it is another one.
* A table that was made without entries is *blank* until something is put in.  A blank table has
  nothing to remove, whatever the key: it does not even look at it.

Operations that fail keep what they did before, so they give a table and perhaps a failure.
-/

namespace Stencil

/-! ## Entries -/

/-- The entries of a dict, in the order in which their keys came. -/
abbrev Entries := List (Value × Value)

namespace Entries

def find (key : Value) : Entries → Except Failure (Option Value)
  | [] => .ok none
  | (k, v) :: rest => do if ← key.sameKey k then return some v else find key rest

/-- The value under a key, where a key that cannot be compared finds nothing. -/
def get? (key : Value) (es : Entries) : Option Value :=
  match es.find key with
  | .ok v => v
  | .error _ => none

/-- Puts a value under a key; a key that is there keeps its place. -/
def put (key value : Value) : Entries → Except Failure Entries
  | [] => .ok [(key, value)]
  | (k, v) :: rest => do
    if ← key.sameKey k then return (k, value) :: rest
    else return (k, v) :: (← put key value rest)

def take (key : Value) : Entries → Except Failure (Option (Value × Entries))
  | [] => .ok none
  | (k, v) :: rest => do
    if ← key.sameKey k then return some (v, rest)
    else return (← take key rest).map fun (w, others) => (w, (k, v) :: others)

def erase (key : Value) (es : Entries) : Entries :=
  match es.take key with
  | .ok (some (_, rest)) => rest
  | _ => es

def keys (es : Entries) : List Value := es.map (·.1)

def values (es : Entries) : List Value := es.map (·.2)

/-- The entries of one dict, then those of another, which win.  An entry whose key cannot be
compared is left out. -/
def merge (first second : Entries) : Entries :=
  second.foldl (fun es (k, v) => match es.put k v with
    | .ok es => es
    | .error _ => es) first

end Entries

/-! ## Tables -/

structure Table where
  entries : Entries
  isBlank : Bool

namespace Table

def ready (es : Entries) : Table := ⟨es, false⟩

/-- A table that was made without entries and got them afterwards. -/
def filled (es : Entries) : Table := ⟨es, es.isEmpty⟩

def keys (t : Table) : List Value := t.entries.keys

def checkKey (v : Value) : Except Failure Unit :=
  match v.unhashable? with
  | some type => .error (.plain ("unhashable type: " ++ type))
  | none => .ok ()

def find (t : Table) (key : Value) : Except Failure (Option Value) := do
  checkKey key
  t.entries.find key

def has (t : Table) (key : Value) : Except Failure Bool := return (← t.find key).isSome

/-- Puts a value under a key.  A table is not blank any more when that fails. -/
def put (t : Table) (key value : Value) : Table × Option Failure :=
  match do checkKey key; t.entries.put key value with
  | .ok es => (.ready es, none)
  | .error f => (.ready t.entries, some f)

def putAll (t : Table) : Entries → Table × Option Failure
  | [] => (t, none)
  | (k, v) :: rest =>
    match t.put k v with
    | (t, none) => t.putAll rest
    | (t, some f) => (t, some f)

def remove (t : Table) (key : Value) : Except Failure (Option (Value × Table)) :=
  if t.isBlank then .ok none
  else do
    checkKey key
    return (← t.entries.take key).map fun (v, es) => (v, .ready es)

/-- A table without entries; it does not become blank again. -/
def clear (t : Table) : Table := { t with entries := [] }

/-! ## Sets -/

def copy (t : Table) : Table := .filled t.entries

def add (t : Table) (v : Value) : Table × Option Failure := t.put v .null

def addAll (t : Table) (items : List Value) : Table × Option Failure :=
  t.putAll (items.map fun v => (v, .null))

def without (t : Table) : List Value → Except Failure Table
  | [] => .ok t
  | v :: vs => do (((← t.remove v).map (·.2)).getD t).without vs

/-- The given items that are in a set, put into another. -/
def common (t into : Table) : List Value → Except Failure Table
  | [] => .ok into
  | v :: vs => do
    if ← t.has v then
      match into.add v with
      | (into, none) => t.common into vs
      | (_, some f) => .error f
    else t.common into vs

/-- Takes out the given items that are there and puts in the others, as far as they can be put
in. -/
def toggled (t : Table) : List Value → Except Failure Table
  | [] => .ok t
  | v :: vs => do
    match ← t.remove v with
    | some (_, t) => t.toggled vs
    | none => (t.add v).1.toggled vs

/-- Whether all given items are in a set.  The first that is not decides. -/
def covers (t : Table) : List Value → Except Failure Bool
  | [] => .ok true
  | v :: vs => do if ← t.has v then t.covers vs else return false

/-- Whether the items of a set, `left` of which have not been met, are all among the given ones.  It
is known as soon as all have been met. -/
def allMet (left : Entries) : List Value → Except Failure Bool
  | [] => .ok left.isEmpty
  | v :: vs =>
    if left.isEmpty then .ok true
    else do
      checkKey v
      allMet (((← left.take v).map (·.2)).getD left) vs

def isWithin (t : Table) (items : List Value) : Except Failure Bool := allMet t.entries items

/-- Whether two sets have the same items.  An item that cannot be compared is not found. -/
def equals (t u : Table) : Bool :=
  t.entries.length == u.entries.length && t.keys.all fun k => (u.entries.get? k).isSome

end Table
end Stencil
