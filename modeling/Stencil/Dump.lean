import Stencil.Host

/-!
# Plain data for inspection

Every piece of data with its type, one item a line, indented by two spaces for each level.

Data that is met more than once is written out the first time only.  There a comment at the end of
the line gives it a name, and the name stands for it from then on.  What can be met again is a
record behind a reference, and an empty list: all empty lists of one type are in the same place.
-/

namespace Stencil.Dump

open Text (quoted)

/-! ## What is met again -/

/-- What tells a piece of data from others: its place, which an empty list does not have, and its
type. -/
structure Mark where
  place : Option Address
  type : String
  deriving DecidableEq, Repr

def mark? : Plain → Option Mark
  | .list element [] => some ⟨none, "[]" ++ element⟩
  | .object o =>
    match o.sameness with
    | .place a => some ⟨some a, o.typeName⟩
    | _ => none
  | _ => none

structure Survey where
  met : List Mark
  again : List Mark

/-- Takes note of a piece of data, and of what is below it unless that is known. -/
def Survey.note (p : Plain) (below : Survey → Survey) (s : Survey) : Survey :=
  match mark? p with
  | none => below s
  | some m =>
    if !s.met.contains m then below { s with met := m :: s.met }
    else if s.again.contains m then s
    else { s with again := m :: s.again }

mutual

def survey (object : Object → Survey → Survey) : Plain → Survey → Survey
  | .list element items, s => s.note (.list element items) (surveyAll object items)
  | .map _ values, s => surveyAll object values s
  | .object o, s => s.note (.object o) (object o)
  | .record o, s => object o s
  | _, s => s

def surveyAll (object : Object → Survey → Survey) : List Plain → Survey → Survey
  | [], s => s
  | p :: ps, s => surveyAll object ps (survey object p s)

end

/-- The survey of an object, with references followed at most `steps` times in a row. -/
def surveyWithin (h : Host) : Nat → Object → Survey → Survey
  | 0, _, s => s
  | steps + 1, o, s =>
    (h.thing o.target).fields.foldl (fun s f => survey (surveyWithin h steps) f.value s) s

/-- How many times in a row references can be followed in a program. -/
def reach (h : Host) : Nat := h.things.size + 1

/-- What is met more than once in a piece of data. -/
def shared (h : Host) (p : Plain) : List Mark := (survey (surveyWithin h (reach h)) p ⟨[], []⟩).again

/-! ## Text -/

/-- A text, and the comment for the end of the line it ends on. -/
structure Shown where
  text : String
  comment : String

/-- Writing, while names are given to what is shared. -/
abbrev Writing (α : Type) := StateM (List Mark) α

/-- Writes a piece of data by its name when it has one.  Else it is written out, and when it is
shared it gets the next name and a comment that says so. -/
def named (shared : List Mark) (p : Plain) (whole : String → Writing Shown) : Writing Shown := do
  match mark? p with
  | none => whole ""
  | some m =>
    if !shared.contains m then whole ""
    else
      let names ← get
      match names.idxOf? m with
      | some i => return ⟨s!"p{i}", ""⟩
      | none => do
        set (names ++ [m])
        whole s!" // p{names.length}"

def margin (depth : Nat) : String := String.ofList (List.replicate (2 * depth) ' ')

/-- Lines in braces after a type; without lines the braces stand together. -/
def braces (type comment : String) (depth : Nat) (lines : List Shown) : Shown :=
  if lines.isEmpty then ⟨type ++ "\x7b\x7d", comment⟩
  else
    let inner := lines.map fun l => margin (depth + 1) ++ l.text ++ "," ++ l.comment ++ "\n"
    ⟨type ++ "\x7b" ++ comment ++ "\n" ++ String.join inner ++ margin depth ++ "\x7d", ""⟩

def labelled (label : String) (line : Writing Shown) : Writing Shown := do
  let l ← line
  return { l with text := label ++ ": " ++ l.text }

/-- A double: an integer with all its digits and a zero after the point. -/
def float (f : Float) : String :=
  if Decimal.isInteger f then Decimal.fixed f 1 else Decimal.general f

def key : Plain → String
  | .text s => quoted s
  | .int i => toString i
  | .bool b => if b then "true" else "false"
  | _ => "nil"

def shortName (typeName : String) : String :=
  String.ofList (typeName.toList.reverse.takeWhile (· != '.')).reverse

def bare (s : String) : Writing Shown := return ⟨s, ""⟩

mutual

/-- Plain data at a depth, given what is shared and how objects are written; the flag says whether
an object is behind a reference, and the last text is its comment. -/
def write (shared : List Mark) (object : Nat → Bool → Object → String → Writing Shown)
    (depth : Nat) : Plain → Writing Shown
  | .null => bare "nil"
  | .bool b => bare (if b then "true" else "false")
  | .int i => bare (toString i)
  | .float f => bare (float f)
  | .text s => bare (quoted s)
  | .list element items =>
    let lines := writeAll shared object (depth + 1) items
    named shared (.list element items) fun comment => do
      return braces ("[]" ++ element) comment depth (← lines.mapM id)
  | .unset => bare "nil"
  | .map keys values =>
    let entries := (keys.map key).zip (writeAll shared object (depth + 1) values)
    let sorted := entries.mergeSort fun a b => a.1 ≤ b.1
    do
      return braces ("map[string]" ++ Plain.anything) "" depth
        (← sorted.mapM fun (k, line) => labelled k line)
  | .object o => named shared (.object o) (object depth true o)
  | .record o => object depth false o ""
  | .nowhere _ => bare "nil"
  | .value _ => bare "nil"

def writeAll (shared : List Mark) (object : Nat → Bool → Object → String → Writing Shown)
    (depth : Nat) : List Plain → List (Writing Shown)
  | [] => []
  | p :: ps => write shared object depth p :: writeAll shared object depth ps

end

def objectWithin (h : Host) (shared : List Mark) :
    Nat → Nat → Bool → Object → String → Writing Shown
  | 0, _, _, _, _ => bare "..."
  | steps + 1, depth, reference, o, comment =>
    match (h.thing o.target).body with
    | .number i => return ⟨toString i, comment⟩
    | .moment _ =>
      return braces ((if reference then "&" else "") ++ shortName o.typeName) comment depth []
    | .unknown => return ⟨o.typeName ++ o.shown, comment⟩
    | .record fields => do
      let lines ← fields.mapM fun f =>
        labelled f.name (write shared (objectWithin h shared steps) (depth + 1) f.value)
      return braces ((if reference then "&" else "") ++ shortName o.typeName) comment depth lines

def describe (h : Host) (p : Plain) : String :=
  let shared := shared h p
  ((write shared (objectWithin h shared (reach h)) 0 p).run []).1.text

end Stencil.Dump
