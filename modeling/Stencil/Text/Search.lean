/-!
# Searching in texts
-/

namespace Stencil.Text

def isInside {α : Type} [BEq α] (needle : List α) : List α → Bool
  | [] => needle.isEmpty
  | c :: cs => needle.isPrefixOf (c :: cs) || isInside needle cs

def contains (haystack needle : String) : Bool := isInside needle.toList haystack.toList

def startsWith (s start : String) : Bool := start.toList.isPrefixOf s.toList

def endsWith (s ending : String) : Bool := ending.toList.isSuffixOf s.toList

end Stencil.Text
