import Stencil.Language.Filters
import Stencil.Language.Functions
import Stencil.Language.Operators
import Stencil.Language.Tests
import Stencil.Parse.Tags

/-!
# Extensions

An extension adds tags, operators, filters, functions and tests to the language.  The language
itself is the first extension.

`Registry.ofExtensions` puts extensions together.  A name that is taken keeps its first meaning, and
every later claim to it is a conflict.
-/

namespace Stencil

open Text (quoted)

structure Extension where
  name : String
  tags : List Tag := []
  unary : List (String × UnaryOperator) := []
  binary : List (String × BinaryOperator) := []
  filters : List (String × Callable) := []
  functions : List (String × Callable) := []
  tests : List (String × Callable) := []

def Extension.core : Extension :=
  { name := "core"
    tags := Parse.coreTags
    unary := Language.unaryOperators
    binary := Language.binaryOperators
    filters := Language.filters
    functions := Language.functions
    tests := Language.tests }

abbrev Shelf (α : Type) := List (String × String × α)

namespace Shelf

def get? {α : Type} (s : Shelf α) (name : String) : Option α := (s.lookup name).map (·.2)

def entries {α : Type} (s : Shelf α) : List (String × α) := s.map fun (name, _, a) => (name, a)

def claim {α : Type} (sort owner : String) (s : Shelf α) (name : String) (a : α) :
    Shelf α × List String :=
  match s.lookup name with
  | some (first, _) =>
    (s, [s!"{sort} {quoted name} of extension {quoted owner} is already registered by " ++
      quoted first])
  | none => (s ++ [(name, owner, a)], [])

def claimAll {α : Type} (sort owner : String) : Shelf α → List (String × α) →
    Shelf α × List String
  | s, [] => (s, [])
  | s, (name, a) :: rest =>
    let (s, first) := claim sort owner s name a
    let (s, more) := claimAll sort owner s rest
    (s, first ++ more)

def claimSorted {α : Type} (sort owner : String) (s : Shelf α) (items : List (String × α)) :
    Shelf α × List String :=
  claimAll sort owner s (items.mergeSort fun a b => a.1 ≤ b.1)

end Shelf

/-- Everything several extensions add to the language. -/
structure Registry where
  tags : Shelf Tag := []
  unary : Shelf UnaryOperator := []
  binary : Shelf BinaryOperator := []
  filters : Shelf Callable := []
  functions : Shelf Callable := []
  tests : Shelf Callable := []

namespace Registry

def add (r : Registry) (e : Extension) : Registry × List String :=
  let (tags, c₁) := Shelf.claimAll "tag" e.name r.tags (e.tags.map fun t => (t.name, t))
  let (unary, c₂) := Shelf.claimSorted "unary operator" e.name r.unary e.unary
  let (binary, c₃) := Shelf.claimSorted "binary operator" e.name r.binary e.binary
  let (filters, c₄) := Shelf.claimSorted "filter" e.name r.filters e.filters
  let (functions, c₅) := Shelf.claimSorted "function" e.name r.functions e.functions
  let (tests, c₆) := Shelf.claimSorted "test" e.name r.tests e.tests
  (⟨tags, unary, binary, filters, functions, tests⟩, c₁ ++ c₂ ++ c₃ ++ c₄ ++ c₅ ++ c₆)

def ofExtensions (es : List Extension) : Registry × List String :=
  es.foldl (fun (r, cs) e => let (r, more) := r.add e; (r, cs ++ more)) ({}, [])

def grammar (r : Registry) : Grammar :=
  { vocabulary :=
      { unary := r.unary.entries
        binary := r.binary.entries
        filters := r.filters.map (·.1)
        functions := r.functions.map (·.1)
        tests := r.tests.map (·.1) }
    tags := r.tags.map fun (_, _, t) => t }

end Registry
end Stencil
