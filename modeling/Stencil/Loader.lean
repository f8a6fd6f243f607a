import Stencil.Failure
import Stencil.Files

/-!
# Loaders

A loader gives the source of a template by its name.

* `Loader.memory` — sources that are at hand.
* `Loader.below` — files below a root.  A name is divided by slashes or backslashes, and cannot
  leave the root: `Loader.locate` says which path is read.
* `Loader.chain` — several loaders, asked in turn.  Only an answer that there is no such template
  moves on to the next one.
-/

namespace Stencil

abbrev Loader := String → Except Failure String

namespace Loader

open Text (quoted)

def memory (sources : List (String × String)) : Loader := fun name =>
  match sources.lookup name with
  | some source => .ok source
  | none => .error (.notFound name)

def broken (message : String) : Loader := fun _ => .error (.plain message)

/-! ## Files -/

/-- Why a name is no name of a file below a root. -/
inductive BadName
  | empty
  | escapes
  deriving DecidableEq, Repr

def BadName.message (name : String) : BadName → String
  | empty => s!"invalid template name {quoted name}"
  | escapes => s!"template name {quoted name} leaves the template directory"

def relative (name : String) : Path :=
  let slashed := name.toList.map fun c => if c = '\\' then '/' else c
  .ofString (String.ofList (if slashed.head? == some '/' then slashed.drop 1 else slashed))

def locate (root name : String) : Except BadName Path :=
  if name.isEmpty || name.toList.contains '\x00' then .error .empty
  else
    let rel := relative name
    if rel.escapes then .error .escapes
    else .ok (if root.isEmpty then rel else (Path.ofString root).append rel)

def below (read : Path → Except Unreadable String) (root : String) : Loader := fun name =>
  match locate root name with
  | .error bad => .error (.plain (bad.message name))
  | .ok path => match read path with
    | .ok source => .ok source
    | .error .absent => .error (.notFound name)
    | .error why =>
      .error (.explained s!"can't read template {quoted name}" (.plain (why.message path.toString)))

def ofArchive (a : Archive) (root : String) : Loader :=
  below (fun p => match a.read? p with | some s => .ok s | none => .error .absent) root

def ofDirectory (d : Directory) (root : String) : Loader :=
  below (fun p => d.read p.toString) root

/-! ## Several loaders -/

def chain : List Loader → Loader
  | [], name => .error (.notFound name)
  | l :: ls, name =>
    match l name with
    | .ok source => .ok source
    | .error f => if f.saysMissing then chain ls name else .error f

end Loader
end Stencil
