import Stencil.Store
import Stencil.Decimal.Reader
import Stencil.Text.Distance

/-!
# Arguments

How the arguments of a call are checked.  `positional` is for callables that know their arguments by
position only; `bind` is for those that also take them by name, and gives back one value for each
parameter, or nothing for one that was left out.
-/

namespace Stencil.Arguments

open Text (quoted)

/-! ## One argument -/

inductive Want
  | anything
  | text
  | bool
  | int
  | list
  | dict
  | iterable
  deriving DecidableEq, Repr

def Want.word : Want → String
  | anything => "value"
  | text => "string"
  | bool => "bool"
  | int => "int"
  | list => "list"
  | dict => "dict"
  | iterable => "iterable"

def Want.takes : Want → Value → Bool
  | anything, _ => true
  | text, .text _ => true
  | bool, .bool _ => true
  | int, .int _ => true
  | list, .list _ => true
  | dict, .dict _ => true
  | iterable, .list _ => true
  | iterable, .tuple _ => true
  | iterable, .dict _ => true
  | iterable, .set _ => true
  | _, _ => false

def Want.complaint? (w : Want) (v : Value) : Option String :=
  if !w.takes v then some s!"got {v.type}, want {w.word}"
  else match w, v with
    | .int, .int i =>
      if Decimal.fitsInt64 i then none
      else some s!"{i} out of range (want value in signed 64-bit range)"
    | _, _ => none

/-! ## By position -/

def checkFrom (name : String) (i : Nat) : List Want → List Value → Except Failure Unit
  | w :: ws, v :: vs =>
    match w.complaint? v with
    | some text => .error (.plain s!"{name}: for parameter {i}: {text}")
    | none => checkFrom name (i + 1) ws vs
  | _, _ => .ok ()

def positional (name : String) (least : Nat) (wants : List Want) (args : List Value) :
    Except Failure Unit :=
  let most := wants.length
  let count := args.length
  if count < least then
    let word := if least < most then "at least " else ""
    .error (.plain s!"{name}: got {count} arguments, want {word}{least}")
  else if most < count then
    let word := if least < most then "at most " else ""
    .error (.plain s!"{name}: got {count} arguments, want {word}{most}")
  else checkFrom name 1 wants args

/-! ## By name -/

structure Parameter where
  name : String
  want : Want
  optional : Bool
  deriving Repr

def needed (name : String) : Parameter := ⟨name, .anything, false⟩

def optional (name : String) (want : Want) : Parameter := ⟨name, want, true⟩

abbrev Bound := List (Parameter × Option Value)

def bindPositional (callee : String) : List Parameter → List Value → Except Failure Bound
  | [], _ => .ok []
  | ps, [] => .ok (ps.map fun p => (p, none))
  | p :: ps, v :: vs =>
    match p.want.complaint? v with
    | some text => .error (.plain s!"{callee}: for parameter {p.name}: {text}")
    | none => do return (p, some v) :: (← bindPositional callee ps vs)

/-- The names that are proposed for one that is not known.  They are taken from the first half
of the parameters only. -/
def proposals (b : Bound) : List String := (b.map (·.1.name)).take ((b.length + 1) / 2)

def setNamed (callee name : String) (v : Value) : Bound → Except Failure (Option Bound)
  | [] => .ok none
  | (p, old) :: rest =>
    if p.name == name then
      match old, p.want.complaint? v with
      | some _, _ =>
        .error (.plain (s!"{callee}: got multiple values for keyword argument " ++ quoted name))
      | none, some text =>
        .error (.plain (s!"{callee}: for parameter " ++ quoted name ++ ": " ++ text))
      | none, none => .ok (some ((p, some v) :: rest))
    else do
      match ← setNamed callee name v rest with
      | some rest => return some ((p, old) :: rest)
      | none => return none

def bindNamed (callee : String) : Bound → List (String × Value) → Except Failure Bound
  | b, [] => .ok b
  | b, (name, v) :: more => do
    match ← setNamed callee name v b with
    | some b => bindNamed callee b more
    | none =>
      let hint := match Text.nearest? name (proposals b) with
        | some near => s!" (did you mean {near}?)"
        | none => ""
      .error (.plain (s!"{callee}: unexpected keyword argument " ++ quoted name ++ hint))

def missing? (b : Bound) : Option Parameter :=
  (b.takeWhile fun (p, _) => !p.optional).findSome? fun (p, v) =>
    match v with
    | none => some p
    | some _ => none

def bind (callee : String) (parameters : List Parameter) (args : List Value)
    (named : List (String × Value)) : Except Failure (List (Option Value)) := do
  if parameters.length < args.length then
    let most := parameters.length
    throw (.plain s!"{callee}: got {args.length} arguments, want at most {most}")
  let b ← bindPositional callee parameters args
  let b ← bindNamed callee b named
  match missing? b with
  | some p => throw (.plain s!"{callee}: missing argument for {p.name}")
  | none => return b.map (·.2)

end Stencil.Arguments
