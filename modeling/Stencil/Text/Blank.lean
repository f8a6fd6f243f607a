/-!
# Blank characters

A character is blank when Unicode gives it the property `White_Space`.  Blank characters separate
the words of an operator and are cut from the ends of a text that is read as a number.

* `trimBlank` — a text without the blanks at its two ends.
* `words` — the maximal runs of characters that are not blank.
-/

namespace Stencil.Text

def isBlank (c : Char) : Bool :=
  let n := c.toNat
  (9 ≤ n && n ≤ 13) || n == 0x20 || n == 0x85 || n == 0xa0 || n == 0x1680
    || (0x2000 ≤ n && n ≤ 0x200a) || n == 0x2028 || n == 0x2029 || n == 0x202f || n == 0x205f
    || n == 0x3000

def trimBoth {α : Type} (p : α → Bool) (l : List α) : List α :=
  (((l.dropWhile p).reverse).dropWhile p).reverse

def trimEnd {α : Type} (p : α → Bool) (l : List α) : List α :=
  (l.reverse.dropWhile p).reverse

def trimBlank (s : String) : String :=
  String.ofList (trimBoth isBlank s.toList)

def allBlank (s : String) : Bool :=
  s.toList.all isBlank

/-- The words of a text, given the reversed word that is being read. -/
def wordsFrom (word : List Char) : List Char → List (List Char)
  | [] => if word.isEmpty then [] else [word.reverse]
  | c :: rest =>
    if isBlank c then
      if word.isEmpty then wordsFrom [] rest else word.reverse :: wordsFrom [] rest
    else wordsFrom (c :: word) rest

def words (s : String) : List (List Char) := wordsFrom [] s.toList

end Stencil.Text
