/-!
# Paths

A path is cleaned by looking at its text alone.  What it names is a list of parts; empty parts and
`.` say nothing, and `..` takes back the part before it.  A `..` with nothing before it stays,
unless the path starts at the root, above which there is nothing.

* `Path.ofString` — the cleaned path of a text.
* `Path.append` — a path below another.
* `Path.escapes` — whether a path leaves the place where it starts.
-/

namespace Stencil

structure Path where
  rooted : Bool
  parts : List String
  deriving DecidableEq, Repr

namespace Path

def segments : List Char → List (List Char)
  | [] => [[]]
  | c :: cs =>
    if c = '/' then [] :: segments cs
    else match segments cs with
      | [] => [[c]]
      | s :: ss => (c :: s) :: ss

def push (rooted : Bool) (back : List String) (part : String) : List String :=
  if part = "" ∨ part = "." then back
  else if part = ".." then
    match back with
    | [] => if rooted then [] else [".."]
    | last :: before => if last = ".." then ".." :: last :: before else before
  else part :: back

def ofString (s : String) : Path :=
  let rooted := s.toList.head? == some '/'
  let parts := (segments s.toList).map String.ofList
  ⟨rooted, (parts.foldl (push rooted) []).reverse⟩

def append (p q : Path) : Path :=
  ⟨p.rooted, (q.parts.foldl (push p.rooted) p.parts.reverse).reverse⟩

def escapes (p : Path) : Bool := p.parts.head? == some ".."

def toString (p : Path) : String :=
  let text := String.intercalate "/" p.parts
  if p.rooted then "/" ++ text else if p.parts.isEmpty then "." else text

def ancestors (p : Path) : List Path :=
  (List.range p.parts.length).map fun n => ⟨p.rooted, p.parts.take n⟩

end Path
end Stencil
