import Stencil.Plain
import Stencil.Yaml.Node

/-!
# Reading data from a YAML document

A document is read into data of known types.  What does not fit is noted, with its line, and reading
goes on, so that everything that is wrong is reported together; only a scalar that is not what its
tag says, a node within itself and the like end it.

A scalar can be read as text whatever it is, and as a truth value also if it is one of a few words.
A scalar that is nothing changes nothing: it is no item of a list of texts.

A mapping may have entries in common with others: those under the key `<<`.  Its own entries come
first, and of several mappings the first that has a key.

Nodes that are used again are read again.  A document that grows too much by this is refused.
-/

namespace Stencil.Yaml

/-- Why a document cannot be read into data. -/
inductive Refusal
  | malformed (complaint : Complaint)
  /-- It is one, but the data is not of the right types. -/
  | mismatched (notes : List String)

def Refusal.message : Refusal → String
  | malformed c => c.message
  | mismatched notes => "yaml: unmarshal errors:\n  " ++ String.intercalate "\n  " notes

structure Progress where
  notes : List String := []
  steps : Nat := 0
  /-- How many of them were read because they are used again. -/
  repeats : Nat := 0
  /-- How many nodes that are used again lie around this one. -/
  depth : Nat := 0
  moments : List Moment := []

/-- Whether too much of a document is read because it is used again: ninety-nine parts of a hundred
at first, but less and less of a very large one. -/
def Progress.isExcessive (p : Progress) : Bool :=
  let low := 400000
  let high := 4000000
  let allowed :=
    if p.steps ≤ low then 99 * (high - low)
    else if high ≤ p.steps then 10 * (high - low)
    else 99 * (high - low) - 89 * (p.steps - low)
  100 < p.repeats && 1000 < p.steps && allowed * p.steps < 100 * (high - low) * p.repeats

abbrev Reading (α : Type) := StateT Progress (Except Complaint) α

namespace Reading

def fail {α : Type} (why : String) : Reading α := throw ⟨0, why⟩

def note (line : Nat) (text : String) : Reading Unit :=
  modify fun p => { p with notes := p.notes ++ [s!"line {line}: {text}"] }

def count : Reading Unit := do
  modify fun p =>
    { p with steps := p.steps + 1, repeats := if p.depth = 0 then p.repeats else p.repeats + 1 }
  if (← get).isExcessive then fail "document contains excessive aliasing"

def following {α : Type} (n : Node) (body : Node → Reading α) : Reading α := do
  count
  match n with
  | .again _ _ target => do
    modify fun p => { p with depth := p.depth + 1 }
    count
    let a ← body target
    modify fun p => { p with depth := p.depth - 1 }
    return a
  | .loop _ name _ => fail s!"anchor '{name}' value contains itself"
  | n => body n

def scalar (tag text : String) : Reading Scalar :=
  match Scalar.ofTagged tag text with
  | .ok s => pure s
  | .error why => fail why

def moment (m : Moment) : Reading Plain := do
  let target := (← get).moments.length
  modify fun p => { p with moments := p.moments ++ [m] }
  return .record ⟨target, "time.Time", m.shown, .place (.fixed target)⟩

end Reading

namespace Node

open Reading (note fail following)

/-! ## What does not fit -/

/-- The characters that fit into some bytes.  The bytes of one that is cut off are shown as unknown
characters. -/
def takeBytes : Nat → List Char → List Char
  | _, [] => []
  | n, c :: cs =>
    if c.utf8Size ≤ n then c :: takeBytes (n - c.utf8Size) cs else List.replicate n '�'

def excerpt (text : String) : String :=
  if 10 < text.utf8ByteSize then String.ofList (takeBytes 7 text.toList) ++ "..." else text

def tag : Node → String
  | scalar _ t _ => t
  | sequence _ t _ => t
  | mapping _ t _ => t
  | again _ _ n => n.tag
  | loop .. => ""

/-- The text of a scalar and the name of a node that is used again; otherwise nothing. -/
def text : Node → String
  | scalar _ _ s => s
  | again _ name _ => name
  | loop _ name _ => name
  | _ => ""

def mismatch (n : Node) (type : String) : Reading Unit :=
  let what := if n.tag = "!!seq" || n.tag = "!!map" then n.tag
    else s!"{n.tag} \x60{excerpt n.text}\x60"
  note n.line s!"cannot unmarshal {what} into {type}"

/-- Whether two keys are the same.  Keys that are no scalars are not looked into. -/
def sameKey : Node → Node → Bool
  | scalar _ _ s, scalar _ _ t => s == t
  | sequence .., sequence .. => true
  | mapping .., mapping .. => true
  | again _ s _, again _ t _ => s == t
  | again _ s _, loop _ t _ => s == t
  | loop _ s _, again _ t _ => s == t
  | loop _ s _, loop _ t _ => s == t
  | _, _ => false

def repeatedKeys : List Node → List String
  | [] => []
  | k :: ks =>
    ((ks.filter (sameKey k)).map fun l =>
      s!"line {l.line}: mapping key {Text.quoted l.text} already defined at line {k.line}") ++
      repeatedKeys ks

/-- Takes notes of keys that occur again; the answer says whether there are none. -/
def distinctKeys (keys : List Node) : Reading Bool := do
  let twice := repeatedKeys keys
  modify fun p => { p with notes := p.notes ++ twice }
  return twice.isEmpty

def misfit (n : Node) (type : String) : Reading Unit := do
  match n with
  | mapping _ _ entries => if ← distinctKeys (entries.map (·.1)) then n.mismatch type
  | _ => n.mismatch type

/-! ## Types -/

def truthWord? (s : String) : Option Bool :=
  if ["y", "Y", "yes", "Yes", "YES", "on", "On", "ON"].contains s then some true
  else if ["n", "N", "no", "No", "NO", "off", "Off", "OFF"].contains s then some false
  else none

def readBool (n : Node) : Reading (Option Bool) := following n fun n => do
  match n with
  | scalar _ tag text => match ← Reading.scalar tag text with
    | .null => return none
    | .bool b => return some b
    | .text s => match truthWord? s with
      | some b => return some b
      | none => n.mismatch "bool" *> pure none
    | _ => n.mismatch "bool" *> pure none
  | _ => n.misfit "bool" *> pure none

def readText (n : Node) : Reading (Option String) := following n fun n => do
  match n with
  | scalar _ tag text => match ← Reading.scalar tag text with
    | .null => return none
    | .text s => return some s
    | _ => return some text
  | _ => n.misfit "string" *> pure none

def readTexts (n : Node) : Reading (Option (List String)) := following n fun n => do
  match n with
  | scalar _ tag text => match ← Reading.scalar tag text with
    | .null => return some []
    | _ => n.mismatch "[]string" *> pure none
  | sequence _ _ items => return some (← items.filterMapM readText)
  | _ => n.misfit "[]string" *> pure none

/-! ## Mappings -/

/-- Whether a key says that its value is a mapping, or several ones, with further entries. -/
def isMerge : Node → Bool
  | scalar _ tag text => tag = "!!merge" && text = "<<"
  | _ => false

def isMapping : Node → Bool
  | mapping .. => true
  | again _ _ n => n.isMapping
  | loop _ _ b => b
  | _ => false

/-- The mappings whose entries are to be added, each checked only when its turn comes. -/
def sources : Node → List Node
  | sequence _ _ items => items
  | n => [n]

def keyName : Plain → String
  | .null => "null"
  | .bool b => s!"bool {b}"
  | .int i => s!"int {i}"
  | .float f => s!"float {f.toBits}"
  | .text s => "text " ++ s
  | .object o => "object " ++ o.shown
  | .record o => "object " ++ o.shown
  | _ => "other"

structure Taking (κ σ : Type) where
  key : Node → Reading (Option κ)
  plain : κ → Plain
  /-- Takes up an entry, given its key, whether the key was there before, and both nodes. -/
  put : σ → κ → Bool → Node → Node → Reading σ

structure Seen where
  names : List String := []
  /-- The names of keys that are no longer looked at, if entries are being added to another
  mapping. -/
  settled : Option (List String) := none
  source : Option Node := none

def takeEntries {κ σ : Type} (t : Taking κ σ) :
    List (Node × Node) → Seen → σ → Reading (Seen × σ)
  | [], seen, s => return (seen, s)
  | (k, v) :: rest, seen, s => do
    if k.isMerge then takeEntries t rest { seen with source := some v } s
    else match ← t.key k with
      | none => takeEntries t rest seen s
      | some key =>
        let name := keyName (t.plain key)
        if seen.settled.any (·.contains name) then takeEntries t rest seen s
        else do
          let s ← t.put s key (seen.names.contains name) k v
          let names := name :: seen.names
          takeEntries t rest { seen with names, settled := seen.settled.map (name :: ·) } s

/-- Takes up the entries of a mapping and of those whose entries it shares, given how data of any
type is read. -/
def takeMapping {κ σ : Type} (t : Taking κ σ) (any : Node → Reading (Option Plain)) :
    Nat → List (Node × Node) → Option (List String) → σ → Reading (Option (List String) × σ)
  | 0, _, settled, s => return (settled, s)
  | fuel + 1, entries, settled, s => do
    let keys := entries.map (·.1)
    if !(← distinctKeys keys) then return (settled, s)
    let (seen, s) ← takeEntries t entries { settled } s
    match seen.source with
    | none => return (seen.settled, s)
    | some source => do
      let names ← match seen.settled with
        | some names => pure names
        | none => (·.map keyName) <$> keys.filterMapM any
      let (names, s) ← source.sources.foldlM (fun (names, s) n => do
        if !n.isMapping then fail "map merge requires map or sequence of maps as the value"
        following n fun n => match n with
          | mapping _ _ more => do
            let (settled, s) ← takeMapping t any fuel more (some names) s
            return (settled.getD names, s)
          | _ => return (names, s)) (names, s)
      return (seen.settled.map fun _ => names, s)

/-! ## Data of any type -/

def plainOfScalar : Scalar → Reading Plain
  | .null => return .null
  | .bool b => return .bool b
  | .int i => return .int i
  | .float f => return .float f
  | .time m => Reading.moment m
  | .text s => return .text s

mutual

def literal : Plain → String
  | .null => "interface \x7b\x7d(nil)"
  | .bool b => toString b
  | .int i =>
    if Decimal.fitsInt64 i then toString i
    else "0x" ++ String.ofList (Nat.toDigits 16 i.natAbs)
  | .float f => Decimal.Layout.general.print f
  | .text s => Text.quoted s
  | .list _ items =>
    "[]interface \x7b\x7d\x7b" ++ String.intercalate ", " (literals items) ++ "\x7d"
  | .map keys values =>
    let isText : Plain → Bool
      | .text _ => true
      | _ => false
    let type := if keys.all isText then "string" else "interface \x7b\x7d"
    let entries := (literals keys).zip (literals values)
    let sorted := entries.mergeSort fun a b => decide (a.1 ≤ b.1)
    s!"map[{type}]interface \x7b\x7d\x7b" ++
      String.intercalate ", " (sorted.map fun e => e.1 ++ ":" ++ e.2) ++ "\x7d"
  | .object o => o.shown
  | .record o => o.shown
  | _ => ""

def literals : List Plain → List String
  | [] => []
  | p :: ps => literal p :: literals ps

end

def isUnusable : Plain → Bool
  | .list .. => true
  | .map .. => true
  | _ => false

/-- Reads data of any type.  A mapping has texts for keys if all its keys are texts. -/
def readAny : Nat → Node → Reading (Option Plain)
  | 0, _ => return none
  | fuel + 1, n => following n fun n => do
    let value (v : Node) (put : Plain → List (Plain × Plain)) (old : List (Plain × Plain)) :
        Reading (List (Plain × Plain)) := do
      match ← readAny fuel v with
      | some p => return put p
      | none => return old
    let replace (old : List (Plain × Plain)) (k p : Plain) : List (Plain × Plain) :=
      old.filter (fun e => keyName e.1 != keyName k) ++ [(k, p)]
    match n with
    | scalar _ tag text => return some (← plainOfScalar (← Reading.scalar tag text))
    | sequence _ _ items => return some (.list Plain.anything (← items.filterMapM (readAny fuel)))
    | mapping _ _ entries => do
      let (_, taken) ←
        if entries.all fun e => ["!!str", "!!merge"].contains e.1.tag then
          takeMapping
            { key := readText, plain := .text,
              put := fun old k _ _ v => value v (replace old (.text k)) old }
            (readAny fuel) (fuel + 1) entries none []
        else
          takeMapping
            { key := readAny fuel, plain := id,
              put := fun old k _ _ v => do
                if isUnusable k then fail s!"invalid map key: {literal k}"
                value v (replace old k) old }
            (readAny fuel) (fuel + 1) entries none []
      return some (.map (taken.map (·.1)) (taken.map (·.2)))
    | _ => return none

def readNamed (fuel : Nat) (n : Node) : Reading (List (String × Plain)) := following n fun n => do
  let type := "map[string]interface \x7b\x7d"
  match n with
  | scalar _ tag text => match ← Reading.scalar tag text with
    | .null => return []
    | _ => n.mismatch type *> pure []
  | mapping _ _ entries => do
    let (_, taken) ← takeMapping
      { key := readText, plain := .text,
        put := fun (old : List (String × Plain)) k _ _ v => do
          match ← readAny fuel v with
          | some p => return old.filter (·.1 != k) ++ [(k, p)]
          | none => return old }
      (readAny fuel) fuel entries none []
    return taken
  | _ => n.mismatch type *> pure []

end Node

/-- Reads the first document of a text, if there is one.  The number that is passed on bounds how
deep nodes can lie in it. -/
def read {α : Type} (text : String) (none : α) (reading : Nat → Node → Reading α) :
    Except Refusal (α × List Moment) :=
  match parse text with
  | .error c => .error (.malformed c)
  | .ok .none => .ok (none, [])
  | .ok (some n) => match (reading (text.length + 2) n).run { steps := 1 } with
    | .error c => .error (.malformed c)
    | .ok (a, p) => if p.notes.isEmpty then .ok (a, p.moments) else .error (.mismatched p.notes)

end Stencil.Yaml
