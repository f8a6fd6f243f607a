import Stencil.Text.Blank

/-!
# Member names

Members of objects are written as words run together, each with a capital: `first_name` in a
template may name the member `FirstName`.  `camel` makes such a name.  A letter is capitalised at
the start, after a digit and after a separator; a capital directly after a capital becomes small;
everything that is neither a letter nor a digit is dropped.
-/

namespace Stencil.Text

def isSeparator (c : Char) : Bool := c == '_' || c == ' ' || c == '-' || c == '.'

/-- The rest of a member name.  `capital` says whether the next letter becomes a capital, and
`afterCapital` whether the character before was one. -/
def camelFrom (capital afterCapital : Bool) : List Char → List Char
  | [] => []
  | c :: cs =>
    if c.isUpper then
      (if !capital && afterCapital then c.toLower else c) :: camelFrom false true cs
    else if c.isLower then (if capital then c.toUpper else c) :: camelFrom false false cs
    else if c.isDigit then c :: camelFrom true false cs
    else camelFrom (isSeparator c) false cs

def camel (s : String) : String := String.ofList (camelFrom true false (trimBlank s).toList)

end Stencil.Text
