import Stencil.Path

/-!
# Files

Two ways in which files are kept.

An `Archive` holds files by their cleaned paths.  A directory is there when a file is below it, and
reading it gives nothing.  Paths that start at the root and paths that do not are told apart, but
the place where all paths start is the same for both.

A `Directory` holds the files that a program sees from where it runs.  A path is followed part by
part, and it matters where one gets stuck: there may be nothing of that name, or a file where a
directory would be needed.
-/

namespace Stencil

/-! ## Archives -/

structure Archive where
  files : List (Path × String)

namespace Archive

def place (p : Path) : Path :=
  if p.parts.isEmpty || (!p.rooted && p.parts == [".."]) then ⟨true, []⟩ else p

def ofFiles (files : List (String × String)) : Archive :=
  ⟨files.map fun (p, content) => (place (.ofString p), content)⟩

def isDirectory (a : Archive) (p : Path) : Bool :=
  p == ⟨true, []⟩ || a.files.any fun (f, _) => f.ancestors.any (place · == p)

def read? (a : Archive) (p : Path) : Option String :=
  let p := place p
  match a.files.lookup p with
  | some content => some content
  | none => if a.isDirectory p then some "" else none

end Archive

/-! ## Directories -/

inductive Unreadable
  | absent
  | notDirectory
  | isDirectory
  | nameTooLong
  | badPath
  deriving DecidableEq, Repr

namespace Unreadable

def describe : Unreadable → String
  | absent => "no such file or directory"
  | notDirectory => "not a directory"
  | isDirectory => "is a directory"
  | nameTooLong => "file name too long"
  | badPath => "invalid argument"

/-- The wording for a path.  Only a directory is found out about after it was opened. -/
def message (path : String) (u : Unreadable) : String :=
  let verb := if u = isDirectory then "read" else "open"
  s!"{verb} {path}: {u.describe}"

end Unreadable

structure Directory where
  files : List (Path × String)

namespace Directory

def ofFiles (files : List (String × String)) : Directory :=
  ⟨files.map fun (p, content) => (.ofString p, content)⟩

inductive Position
  | directory (p : Path)
  | file (content : String)

/-- Whether there is a directory.  Those above the starting point are always there. -/
def isDirectory (d : Directory) (p : Path) : Bool :=
  p.parts.all (· == "..") || d.files.any fun (f, _) => f.ancestors.contains p

def longestName : Nat := 255

def longestPath : Nat := 4095

def step (d : Directory) (position : Position) (part : String) : Except Unreadable Position :=
  match position with
  | .file _ => .error .notDirectory
  | .directory p =>
    if longestName < part.utf8ByteSize then .error .nameTooLong
    else
      let q := p.append ⟨false, [part]⟩
      match d.files.lookup q with
      | some content => .ok (.file content)
      | none => if d.isDirectory q then .ok (.directory q) else .error .absent

def read (d : Directory) (path : String) : Except Unreadable String := do
  let cs := path.toList
  if cs.contains '\x00' then throw .badPath
  if cs.isEmpty then throw .absent
  if longestPath < path.utf8ByteSize then throw .nameTooLong
  let start : Path := ⟨cs.head? == some '/', []⟩
  match ← ((Path.segments cs).map String.ofList).foldlM d.step (.directory start) with
  | .file content => return content
  | .directory _ => throw .isDirectory

end Directory
end Stencil
