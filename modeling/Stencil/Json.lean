import Stencil.Host

/-!
# Plain data as JSON

The keys of maps are sorted.  Characters that would mean something in a document are written with
their numbers, and so are the two line separators.  Records are written with their fields, those of
a record they are built on in its place.  Not all doubles and not all objects can be written.
-/

namespace Stencil.Json

open Text (hexDigits)

/-! ## Texts -/

def numberedChar (c : Char) : List Char := '\\' :: 'u' :: hexDigits 4 c.toNat

def textChar (c : Char) : List Char :=
  if c == '"' || c == '\\' then ['\\', c]
  else if c == '\n' then ['\\', 'n']
  else if c == '\r' then ['\\', 'r']
  else if c == '\t' then ['\\', 't']
  else if c.toNat == 8 then ['\\', 'b']
  else if c.toNat == 12 then ['\\', 'f']
  else if c.toNat < 0x20 || c == '<' || c == '>' || c == '&' then numberedChar c
  else if c.toNat == 0x2028 || c.toNat == 0x2029 then numberedChar c
  else [c]

def text (s : String) : String :=
  "\"" ++ String.ofList (s.toList.flatMap textChar) ++ "\""

def float (f : Float) : Except Failure String :=
  if f.isFinite then .ok (Decimal.Layout.interchange.print f)
  else .error (.plain ("json: unsupported value: " ++ Decimal.general f))

/-! ## Data -/

def keyText : Plain → String
  | .text s => s
  | .int i => toString i
  | .bool b => if b then "true" else "false"
  | _ => ""

def braces (entries : List (String × String)) : String :=
  "\x7b" ++ String.intercalate "," (entries.map fun (k, v) => text k ++ ":" ++ v) ++ "\x7d"

mutual

def write (object : Object → Except Failure String) : Plain → Except Failure String
  | .null => .ok "null"
  | .bool b => .ok (if b then "true" else "false")
  | .int i => .ok (toString i)
  | .float f => float f
  | .text s => .ok (text s)
  | .list _ items => do
    return "[" ++ String.intercalate "," (← writeAll object items) ++ "]"
  | .unset => .ok "null"
  | .map keys values =>
    writeSorted object (keys.map keyText) values
  | .object o => object o
  | .record o => object o
  | .nowhere _ => .ok "null"
  | .value _ => .ok "null"

def writeAll (object : Object → Except Failure String) : List Plain → Except Failure (List String)
  | [] => .ok []
  | p :: ps => do
    let first ← write object p
    return first :: (← writeAll object ps)

/-- A map, with its keys sorted.  The first entry that cannot be written, in that order, counts. -/
def writeSorted (object : Object → Except Failure String) (keys : List String) (values : List Plain) :
    Except Failure String := do
  let written := keys.zip (writeEach object values)
  let sorted := written.mergeSort fun a b => a.1 ≤ b.1
  let entries ← sorted.mapM fun (k, v) => do return (k, ← v)
  return braces entries

def writeEach (object : Object → Except Failure String) :
    List Plain → List (Except Failure String)
  | [] => []
  | p :: ps => write object p :: writeEach object ps

end

/-! ## Objects -/

/-- A field of an object or of a record it is built on, with how deep it stands. -/
structure Member where
  name : String
  value : Plain
  depth : Nat
  there : Bool

/-- The fields in the order in which they are written, with those of its bases in their places. -/
def membersWithin (h : Host) : Nat → Host.Part → Nat → List Member
  | 0, _, _ => []
  | fuel + 1, p, depth =>
    (h.thing p.object.target).fields.flatMap fun f =>
      match Host.Field.part? p.there f with
      | some base => membersWithin h fuel base (depth + 1)
      | none => [⟨f.name, f.value, depth, p.there⟩]

/-- The fields that are written: one that stands deeper than another of its name, or beside it, is
not, and neither is one of a record that is not there. -/
def members (h : Host) (o : Object) : List (String × Plain) :=
  let all := membersWithin h (h.things.size + 1) ⟨o, true⟩ 0
  let shallowest := all.filter fun m =>
    (all.filter fun other => other.name == m.name && other.depth ≤ m.depth).length == 1
  (shallowest.filter (·.there)).map fun m => (m.name, m.value)

/-- An object, with references followed at most `depth` times in a row. -/
def objectWithin (h : Host) : Nat → Object → Except Failure String
  | 0, _ => .ok "null"
  | depth + 1, o =>
    match (h.thing o.target).body with
    | .number i => .ok (toString i)
    | .moment stamp => .ok (text stamp)
    | .unknown => .error (.plain ("json: unsupported type: " ++ o.typeName))
    | .record _ => do
      let entries ← (members h o).mapM fun (name, value) => do
        return (name, ← write (objectWithin h depth) value)
      return braces entries

def encode (h : Host) (p : Plain) : Except Failure String :=
  write (objectWithin h (h.things.size + 1)) p

end Stencil.Json
