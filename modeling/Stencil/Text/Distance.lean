import Stencil.Text.Case

/-!
# Near names

The distance of two texts is the least number of bytes that have to be put in, taken out or
exchanged to turn one into the other.  `nearest?` uses it to guess which of several names was meant.
-/

namespace Stencil.Text

/-- The next row of the table of distances.  `left` is the entry to the left of the next one and
`corner` the one above that. -/
def nextRow {α : Type} [BEq α] (x : α) (left corner : Nat) : List α → List Nat → List Nat
  | y :: ys, above :: row =>
    let here := min (corner + if x == y then 0 else 1) (min (left + 1) (above + 1))
    here :: nextRow x here above ys row
  | _, _ => []

def lastRow {α : Type} [BEq α] (ys : List α) : List α → List Nat → List Nat
  | [], row => row
  | x :: xs, row =>
    match row with
    | [] => []
    | corner :: rest => lastRow ys xs ((corner + 1) :: nextRow x (corner + 1) corner ys rest)

def distance {α : Type} [BEq α] (xs ys : List α) : Nat :=
  ((lastRow ys xs (List.range (ys.length + 1))).getLast?).getD 0

/-- A name as it is compared with others: in small letters and without underscores. -/
def folded (s : String) : List UInt8 :=
  (String.ofList ((s.toList.filter (· != '_')).map toLower)).toUTF8.toList

/-- The nearest of several names, given the best so far and its distance, which has to be beaten. -/
def nearestFrom (x : List UInt8) (best : Option String) (d : Nat) : List String → Option String
  | [] => best
  | c :: cs =>
    let e := distance x (folded c)
    if e < d then nearestFrom x (some c) e cs else nearestFrom x best d cs

/-- The nearest of several names, if less than half of the name has to be changed. -/
def nearest? (name : String) (candidates : List String) : Option String :=
  let x := folded name
  nearestFrom x none ((x.length + 1) / 2) candidates

end Stencil.Text
