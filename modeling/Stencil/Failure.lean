import Stencil.Failure.Malformed
import Stencil.Failure.Raised

/-!
# Failures

Everything that can go wrong between a source and its output is a value of `Failure`.  A failure
may have a cause, which may have a cause in turn; `chain` lists them from the outside in.

Two kinds of failure belong to a place of a template: a source that is `malformed`, and a reason
`raised` while rendering.  `decorate` puts the place before the final stop of their wording.
-/

namespace Stencil

open Text (quoted)

/-- The stages at which a generated program can turn out to be unusable. -/
inductive BuildStage
  | badName
  | instantiation
  | other (number : Int)
  deriving DecidableEq, Repr

def BuildStage.ofNumber (n : Int) : BuildStage :=
  if n = 1 then badName else if n = 2 then instantiation else other n

def BuildStage.describe : BuildStage → String
  | badName => "bad generated name"
  | instantiation => "instantiation failed"
  | other n => s!"CompileKind({n})"

inductive Failure
  | malformed (reason : Malformed) (template : String) (line : Int)
  | raised (reason : Raised) (template : String) (line : Int) (cause : Option Failure)
  /-- The program generated from a template cannot be used. -/
  | unbuildable (stage : BuildStage) (unit : String) (cause : Option Failure)
  | notFound (name : String)
  | nothingFound
  | explained (lead : String) (cause : Failure)
  /-- A failure that is only a text. -/
  | plain (text : String)
  | stuck
  deriving Repr

namespace Failure

/-! ## Wording -/

/-- Puts the place before the final stop or question mark of a message. -/
def decorate (message template : String) (line : Int) : String :=
  let cs := message.toList
  let tail := match cs.getLast? with
    | some '.' => "."
    | some '?' => "?"
    | _ => ""
  let body := if tail.isEmpty then message else String.ofList cs.dropLast
  let place := if template.isEmpty then "" else " in " ++ quoted template
  let at_ := if 0 < line then s!" at line {line}" else ""
  body ++ place ++ at_ ++ tail

def text : Failure → String
  | malformed reason template line => decorate reason.message template line
  | raised reason template line none => decorate reason.message template line
  | raised reason template line (some cause) =>
    decorate reason.message template line ++ ": " ++ text cause
  | unbuildable stage unit none => s!"compiling {unit}: {stage.describe}"
  | unbuildable stage unit (some cause) =>
    s!"compiling {unit}: {stage.describe}: " ++ text cause
  | notFound name => "template not found: " ++ name
  | nothingFound => "template not found"
  | explained lead cause => lead ++ ": " ++ text cause
  | plain s => s
  | stuck => "nothing can come of this"

/-! ## The chain of causes -/

def cause? : Failure → Option Failure
  | raised _ _ _ cause => cause
  | unbuildable _ _ cause => cause
  | explained _ cause => some cause
  | _ => none

/-- A failure and its causes, from the outside in. -/
def chain : Failure → List Failure
  | raised r t l none => [raised r t l none]
  | raised r t l (some cause) => raised r t l (some cause) :: chain cause
  | unbuildable s u none => [unbuildable s u none]
  | unbuildable s u (some cause) => unbuildable s u (some cause) :: chain cause
  | explained lead cause => explained lead cause :: chain cause
  | f => [f]

def isMalformed : Failure → Bool
  | malformed .. => true
  | _ => false

def isRaised : Failure → Bool
  | raised .. => true
  | _ => false

def isUnbuildable : Failure → Bool
  | unbuildable .. => true
  | _ => false

def isNotFound : Failure → Bool
  | notFound _ => true
  | _ => false

def isStuck : Failure → Bool
  | stuck => true
  | _ => false

/-- Whether a failure comes from a template that does not exist, anywhere in its chain. -/
def saysMissing (f : Failure) : Bool :=
  f.chain.any fun
    | notFound _ => true
    | nothingFound => true
    | _ => false

/-- The kinds of failure a caller can tell apart. -/
inductive Family
  | stuck
  | malformed
  | raised
  | unbuildable
  | notFound
  | plain
  deriving DecidableEq, Repr

/-- The kind of a failure: the first family that occurs anywhere in its chain. -/
def family (f : Failure) : Family :=
  if f.chain.any isStuck then .stuck
  else if f.chain.any isMalformed then .malformed
  else if f.chain.any isRaised then .raised
  else if f.chain.any isUnbuildable then .unbuildable
  else if f.chain.any isNotFound then .notFound
  else .plain

/-! ## Places -/

/-- Fills in the template and the line of the outermost raised failure of a chain, where they are
not known. -/
def locate (template : String) (line : Int) : Failure → Failure
  | malformed r t l =>
    malformed r (if t.isEmpty then template else t) (if l ≤ 0 then line else l)
  | raised r t l c => raised r (if t.isEmpty then template else t) (if l ≤ 0 then line else l) c
  | unbuildable s u (some cause) => unbuildable s u (some (locate template line cause))
  | explained lead cause => explained lead (locate template line cause)
  | f => f

/-- Gives a line to the outermost raised failure of a chain that belongs to a template and has
none. -/
def stamp (template : String) (line : Int) : Failure → Failure
  | raised r t l c => raised r t (if l ≤ 0 && t == template then line else l) c
  | unbuildable s u (some cause) => unbuildable s u (some (stamp template line cause))
  | explained lead cause => explained lead (stamp template line cause)
  | f => f

end Failure
end Stencil
