import Stencil.Arguments
import Stencil.Sequence

/-!
# Methods of containers

Lists, dicts and sets have methods, most of which change them.  A list over which a loop is running
cannot be changed, and neither can a dict or a set while it is read item by item.
`Container.method?` finds the method of a name; what it finds takes the arguments of the call.
-/

namespace Stencil.Container

open Arguments (positional Want)

abbrev Method := List Value → Act Value

abbrev Methods := Value → String → Option Method

def named {α : Type} (name : String) (act : Act α) : Act α :=
  tryCatch act fun f => throw (.plain (name ++ ": " ++ f.text))

def fixed (name : String) (count : Nat) (run : List Value → Act Value) : Method := fun args => do
  Act.ofExcept (positional name count (List.replicate count .anything) args)
  run args

/-! ## Lists -/

def checkStill (r : Nat) (verb : String) : Act Unit := do
  if ((← get).listCell r).loops != 0 then
    Act.complain s!"cannot {verb} list during iteration"

def putList (r : Nat) (verb : String) (items : List Value) : Act Value := do
  checkStill r verb
  modify fun s => s.setListCell r { s.listCell r with items := items }
  return .null

/-- A position in a list as it is written: negative ones count from the end. -/
def index32 (length : Nat) (default : Int) : Option Value → Except Failure Int
  | none => .ok default
  | some .null => .ok default
  | some (.int i) =>
    if -0x80000000 ≤ i && i < 0x80000000 then .ok (if i < 0 then i + length else i)
    else .error (.plain s!"{i} out of range")
  | some v => .error (.plain s!"got {v.type}, want int")

def clamp (length : Nat) (i : Int) : Nat := if i < 0 then 0 else min i.toNat length

def findFrom (s : Store) (v : Value) (i : Nat) : List Value → Except Failure (Option Nat)
  | [] => .ok none
  | x :: xs => do
    if ← s.compare .eq x v then return some i
    findFrom s v (i + 1) xs

def listIndex (r : Nat) : Method := fun args => do
  Act.ofExcept (positional "index" 1 [.anything, .anything, .anything] args)
  named "index" do
    let items ← Act.listItems r
    let n := items.length
    let start ← Act.ofExcept ((index32 n 0 (args[1]?)).mapError fun f =>
      .plain ("invalid start index: " ++ f.text))
    let stop ← Act.ofExcept ((index32 n n (args[2]?)).mapError fun f =>
      .plain ("invalid end index: " ++ f.text))
    let start := clamp n start
    let stop := clamp n stop
    let part := (items.drop start).take (stop - start)
    match ← Act.ofExcept (findFrom (← get) (args.headD .null) start part) with
    | some i => return .int i
    | none => Act.complain "value not in list"

def listInsert (r : Nat) : Method := fun args => do
  Act.ofExcept (positional "insert" 2 [.int, .anything] args)
  match args with
  | [.int i, v] =>
    let items ← Act.listItems r
    let n : Int := items.length
    let i := clamp items.length (if i < 0 then i + n else i)
    named "insert" (putList r "insert into" (items.take i ++ v :: items.drop i))
  | _ => return .null

def outOfRange (i : Int) (n : Nat) : String :=
  if n = 0 then s!"index {i} out of range: empty list"
  else s!"list index {i} out of range [{-(n : Int)}:{(n : Int) - 1}]"

def askedFor (length : Nat) : List Value → Int
  | [.int i] => i
  | _ => (length : Int) - 1

def listPop (r : Nat) : Method := fun args => do
  Act.ofExcept (positional "pop" 0 [.int] args)
  named "pop" do
    let items ← Act.listItems r
    let n := items.length
    let given := askedFor n args
    let i := if given < 0 then given + n else given
    match if i < 0 then none else items[i.toNat]? with
    | none => Act.complain (outOfRange given n)
    | some v => do
      discard (putList r "pop from" (items.eraseIdx i.toNat))
      return v

def listRemove (r : Nat) : Method := fixed "remove" 1 fun args => named "remove" do
  checkStill r "remove from"
  let items ← Act.listItems r
  match ← Act.ofExcept (findFrom (← get) (args.headD .null) 0 items) with
  | some i => putList r "remove from" (items.eraseIdx i)
  | none => Act.complain "element not found"

def listExtend (r : Nat) : Method := fun args => do
  Act.ofExcept (positional "extend" 1 [.iterable] args)
  let more := ((← get).items? (args.headD .null)).getD []
  named "extend" do putList r "extend" ((← Act.listItems r) ++ more)

def listMethods (r : Nat) : List (String × Method) :=
  [("append", fixed "append" 1 fun args => named "append" do
      putList r "append to" ((← Act.listItems r) ++ args)),
   ("clear", fixed "clear" 0 fun _ => named "clear" (putList r "clear" [])),
   ("extend", listExtend r),
   ("index", listIndex r),
   ("insert", listInsert r),
   ("pop", listPop r),
   ("remove", listRemove r)]

/-! ## Dicts -/

def dictGet (r : Nat) : Method := fun args => do
  Act.ofExcept (positional "get" 1 [.anything, .anything] args)
  match ← named "get" (Act.lookup r (args.headD .null)) with
  | some v => return v
  | none => return (args[1]?).getD .null

/-- `pop`: takes out a key and gives its value, or else a default. -/
def dictPop (r : Nat) : Method := fun args => do
  Act.ofExcept (positional "pop" 1 [.anything, .anything] args)
  named "pop" do
    match ← Act.ofExcept ((← Act.table (.dict r)).remove (args.headD .null)) with
    | some (v, t) => do
      Act.putTable (.dict r) t
      return v
    | none => match args[1]? with
      | some v => return v
      | none => Act.complain "missing key"

def popFirst (ref : TableRef) : Act (Option (Value × Value)) := do
  let t ← Act.table ref
  match t.entries with
  | [] => return none
  | (k, v) :: _ => do
    match ← Act.ofExcept (t.remove k) with
    | some (_, t) => Act.putTable ref t
    | none => pure ()
    return some (k, v)

def dictPopItem (r : Nat) : Method := fixed "popitem" 0 fun _ => named "popitem" do
  match ← popFirst (.dict r) with
  | some (k, v) => return .tuple [k, v]
  | none => Act.complain "empty dict"

/-- `setdefault`: the value of a key, which is put in if it is not there. -/
def dictSetDefault (r : Nat) : Method := fun args => do
  Act.ofExcept (positional "setdefault" 1 [.anything, .anything] args)
  let key := args.headD .null
  named "setdefault" do
    match ← Act.lookup r key with
    | some v => return v
    | none => do
      let v := (args[1]?).getD .null
      Act.store r key v
      return v

/-- What is wrong with putting something into a table that is being read. -/
def readNow : String := "cannot insert into hash table during iteration"

def isDict (r : Nat) : Value → Bool
  | .dict q => q == r
  | _ => false

/-- Puts in pairs, the first being number `i`.  A dict that is itself one of the pairs cannot be
changed from then on. -/
def putPairs (r : Nat) (locked : Bool) (i : Nat) : List Value → Act Unit
  | [] => return ()
  | pair :: rest => do
    let locked := locked || isDict r pair
    match (← get).items? pair with
    | none =>
      Act.complain s!"dictionary update sequence element #{i} is not iterable ({pair.type})"
    | some [k, v] =>
      if locked then Act.complain readNow
      else do
        Act.store r k v
        putPairs r locked (i + 1) rest
    | some items =>
      Act.complain
        s!"dictionary update sequence element #{i} has length {items.length}, want 2"

def putPairsOf (r : Nat) (v : Value) : Act Value := do
  match (← get).items? v with
  | none => Act.complain s!"got {v.type}, want iterable"
  | some pairs => do
    putPairs r false 0 pairs
    return .null

def dictUpdate (r : Nat) : Method := fun args =>
  match args with
  | [] => return .null
  | [.dict q] => named "update" do
    let more ← Act.dictEntries q
    Act.alter (.dict r) (·.putAll more)
    return .null
  | [v] => named "update" (putPairsOf r v)
  | args => Act.complain s!"update: got {args.length} arguments, want at most 1"

def dictMethods (r : Nat) : List (String × Method) :=
  [("clear", fixed "clear" 0 fun _ => do
      Act.alter (.dict r) fun t => (t.clear, none)
      return .null),
   ("get", dictGet r),
   ("items", fixed "items" 0 fun _ => do
      Act.newList ((← Act.dictEntries r).map fun (k, v) => .tuple [k, v])),
   ("keys", fixed "keys" 0 fun _ => do Act.newList (← Act.dictEntries r).keys),
   ("pop", dictPop r),
   ("popitem", dictPopItem r),
   ("setdefault", dictSetDefault r),
   ("update", dictUpdate r),
   ("values", fixed "values" 0 fun _ => do Act.newList (← Act.dictEntries r).values)]

/-! ## Sets -/

def setItem (name : String) (run : Value → Act Unit) : Method := fixed name 1 fun args => do
  named name (run (args.headD .null))
  return .null

/-- A method that makes something of a set and the items of another container.  Nothing comes of a
call without one. -/
def setWith (r : Nat) (name : String) (make : Table → List Value → Act Value) : Method :=
  fun args => do
    Act.ofExcept (positional name 0 [.iterable] args)
    match args with
    | [] => throw .stuck
    | v :: _ =>
      let items := ((← get).items? v).getD []
      named name do make (← Act.table (.set r)) items

def setMake (r : Nat) (name : String) (make : Table → List Value → Except Failure Table) : Method :=
  setWith r name fun t items => do Act.addSet (← Act.ofExcept (make t items))

def setAsk (r : Nat) (name : String) (ask : Table → List Value → Except Failure Bool) : Method :=
  setWith r name fun t items => return .bool (← Act.ofExcept (ask t items))

def setAdd (r : Nat) : Method := setItem "add" fun v => do
  if !(← Act.ofExcept ((← Act.table (.set r)).has v)) then Act.alter (.set r) (·.add v)

def setTake (r : Nat) (v : Value) : Act Bool := do
  match ← Act.ofExcept ((← Act.table (.set r)).remove v) with
  | some (_, t) => do
    Act.putTable (.set r) t
    return true
  | none => return false

def setDiscard (r : Nat) : Method := setItem "discard" fun v => do
  if ← Act.ofExcept ((← Act.table (.set r)).has v) then discard (setTake r v)

def setRemove (r : Nat) : Method := setItem "remove" fun v => do
  if !(← setTake r v) then Act.complain "missing key"

def setPop (r : Nat) : Method := fixed "pop" 0 fun _ => named "pop" do
  match ← popFirst (.set r) with
  | some (k, _) => return k
  | none => Act.complain "empty set"

def itemsAt (i : Nat) (v : Value) : Act (List Value) := do
  match (← get).items? v with
  | some items => return items
  | none => Act.complain s!"argument #{i} is not iterable: {v.type}"

/-- A set with the items of the containers given to a method, the first of which is number `i`. -/
def united (t : Table) (i : Nat) : List Value → Act Table
  | [] => return t
  | v :: vs => do
    match t.addAll (← itemsAt i v) with
    | (t, none) => united t (i + 1) vs
    | (_, some f) => throw f

def isSet (r : Nat) : Value → Bool
  | .set q => q == r
  | _ => false

def addContainers (r : Nat) (i : Nat) : List Value → Act Unit
  | [] => return ()
  | v :: vs => do
    let items ← itemsAt i v
    if isSet r v && !items.isEmpty then Act.complain readNow
    else do
      Act.alter (.set r) (·.addAll items)
      addContainers r (i + 1) vs

def setMethods (r : Nat) : List (String × Method) :=
  [("add", setAdd r),
   ("clear", fixed "clear" 0 fun _ => do
      Act.alter (.set r) fun t => (t.clear, none)
      return .null),
   ("difference", setMake r "difference" fun t items => t.copy.without items),
   ("discard", setDiscard r),
   ("intersection", setMake r "intersection" fun t items => t.common (.filled []) items),
   ("issubset", setAsk r "issubset" Table.isWithin),
   ("issuperset", setAsk r "issuperset" Table.covers),
   ("pop", setPop r),
   ("remove", setRemove r),
   ("symmetric_difference", setMake r "symmetric_difference" fun t items => t.copy.toggled items),
   ("union", fun args => named "union" do
      Act.addSet (← united (← Act.table (.set r)).copy 1 args)),
   ("update", fun args => named "update" do
      addContainers r 1 args
      return .null)]

/-! ## All -/

def method? : Methods
  | .list r, name => (listMethods r).lookup name
  | .dict r, name => (dictMethods r).lookup name
  | .set r, name => (setMethods r).lookup name
  | _, _ => none

end Stencil.Container
