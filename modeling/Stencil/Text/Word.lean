import Stencil.Text.Letter

/-!
# Character classes of words

The classes that decide where a word starts and ends when text is put into title case.

* A *cased* character has a capital, a small or a title form, or is one.
* An *ignorable* character is skipped when looking for the cased character before or after it.
* A *word* character never ends a word; a *middle* character, such as an apostrophe, keeps a word
  together when one stands alone between two word characters; any other character ends a word.

All four are properties of Unicode 17.
-/

set_option maxRecDepth 8000

namespace Stencil.Text

def casedRanges : List (Nat × Nat) :=
  rangesOf 0 [65,26,6,26,47,1,10,1,4,1,5,23,1,31,1,195,1,4,4,208,2,35,7,2,30,5,96,1,42,4,2,2,2,4,1,
    1,6,1,1,3,1,1,1,20,1,83,1,139,8,166,1,38,9,41,2839,38,1,1,5,1,2,43,1,4,672,86,2,6,2178,11,5,43,
    2,3,64,192,64,278,2,6,2,38,2,6,2,8,1,1,1,1,1,1,1,31,2,53,1,7,1,1,3,3,1,7,3,4,2,6,4,13,5,3,1,7,
    116,1,13,1,16,13,101,1,4,1,2,10,1,1,3,5,6,1,1,1,1,1,1,4,1,6,4,1,2,4,5,5,4,1,17,32,3,2,817,52,
    1814,229,6,4,3,2,12,38,1,1,5,1,30994,46,18,30,132,102,3,4,1,77,20,6,1,3,821,43,1,14,6,80,20288,
    7,12,5,1033,26,6,26,1189,80,96,36,4,36,116,11,1,15,1,7,1,2,1,11,1,15,1,7,1,2,451,1,2,3,1,42,1,9,
    1221,51,13,51,93,22,10,22,2842,64,21856,64,32,25,2,25,25900,85,1,71,1,2,2,1,2,2,2,4,1,12,1,1,1,
    7,1,65,1,4,2,8,1,7,1,28,1,4,1,5,1,1,3,7,1,340,2,25,1,25,1,31,1,25,1,31,1,25,1,31,1,25,1,31,1,25,
    1,8,1844,10,1,20,6,6,261,62,2194,68,2028,26,6,26,6,26]

def ignorableRanges : List (Nat × Nat) :=
  rangesOf 0 [39,1,6,1,11,1,35,1,1,1,71,1,4,1,1,1,4,1,2,2,503,192,4,2,4,1,9,2,1,1,251,7,207,1,5,1,
    49,45,1,1,1,2,1,2,1,1,44,1,11,6,10,11,1,1,35,1,10,21,16,1,101,8,1,10,1,4,33,1,1,1,30,27,91,11,
    58,11,4,1,2,1,24,24,43,3,44,1,7,2,5,9,41,58,55,1,1,1,4,8,4,1,3,7,10,2,13,1,15,1,58,1,4,4,8,1,20,
    2,26,1,2,2,57,1,4,2,4,2,2,3,3,1,30,2,3,1,11,2,57,1,4,5,1,2,4,1,20,2,22,6,1,1,58,1,2,1,1,4,8,1,7,
    2,11,2,30,1,61,1,12,1,50,1,3,1,55,1,1,3,5,3,1,4,7,2,11,2,29,1,58,1,2,1,6,1,5,2,20,2,28,2,57,2,4,
    4,8,1,20,2,29,1,72,1,7,3,1,1,90,1,2,7,11,9,98,1,2,9,9,1,1,7,73,2,27,1,1,1,1,1,55,14,1,5,1,2,5,
    11,1,36,9,1,102,4,1,6,1,2,2,2,25,2,4,3,16,4,13,1,2,2,6,1,15,1,94,1,608,3,946,3,29,2,30,2,30,2,
    64,2,1,7,8,1,2,11,3,1,5,1,45,5,51,1,65,2,34,1,118,3,4,2,9,1,6,3,219,2,2,1,58,1,1,7,1,1,1,1,2,8,
    6,10,2,1,39,1,8,46,2,12,20,4,48,1,1,5,1,1,5,1,40,9,12,2,32,4,2,2,1,3,56,1,1,2,3,1,1,3,58,8,2,2,
    64,6,82,3,1,13,1,7,4,1,6,1,3,2,50,63,13,1,34,101,445,1,1,3,11,3,13,3,13,3,13,2,12,5,8,2,10,1,2,
    1,2,5,49,5,1,10,1,1,13,1,16,13,51,33,2955,2,113,3,125,1,15,1,96,32,47,1,469,1,36,4,3,5,5,1,93,6,
    93,3,28438,1,1250,6,270,1,98,4,1,10,1,1,28,4,80,2,14,34,78,1,23,3,102,4,3,2,8,1,3,1,4,1,25,2,5,
    1,151,2,26,18,13,1,38,8,25,11,46,3,48,1,2,4,2,2,17,1,21,2,66,6,2,2,2,2,12,1,8,1,35,1,11,1,51,1,
    1,3,2,2,5,2,1,1,27,1,14,2,5,2,1,1,100,5,9,3,121,1,2,1,4,1,20272,1,147,17,573,16,3,1,12,16,34,1,
    2,1,169,1,7,1,6,1,11,1,35,1,1,1,47,1,45,2,67,1,21,3,513,1,226,1,149,5,1029,6,1,42,1,9,582,3,1,2,
    5,4,40,3,4,1,165,2,573,4,38,1,26,5,1,1,315,2,24,1,52,6,70,11,49,4,123,1,54,15,41,1,2,2,10,3,49,
    4,2,2,2,1,4,1,10,1,50,3,36,5,1,8,62,1,12,2,52,9,10,4,2,1,95,3,2,1,1,2,6,1,2,1,157,1,3,8,21,2,57,
    2,3,1,37,7,3,5,70,6,13,1,1,1,1,1,14,2,85,8,2,3,1,1,23,1,84,6,1,1,4,2,1,2,238,4,6,2,1,2,27,2,85,
    8,2,1,1,2,106,1,1,1,2,6,1,1,101,1,1,1,2,4,1,5,259,9,1,2,256,2,1,1,4,1,144,4,2,2,4,1,32,10,40,6,
    2,4,8,1,9,6,2,3,46,13,1,2,198,1,1,3,1,1,201,7,1,6,1,1,82,22,2,7,1,2,1,2,122,6,3,1,1,2,1,7,1,1,
    72,2,3,1,1,1,65,1,281,2,11,2,52,5,5,1,1,1,23,1,5333,17,6,15,11464,12,3,3,2496,5,59,7,9,4,508,3,
    40,2,482,1,63,17,64,2,1,2,13,2,16380,4,1,7,1,2,3230,2,1,4,4700,46,2,23,544,3,9,16,2,7,30,4,148,
    3,1979,55,4,50,8,1,14,1,22,5,1,15,1360,7,1,17,2,7,1,2,1,5,5,62,33,1,160,14,368,1,61,4,507,5,254,
    2,243,1,2,1,7,2,5,1,9,1,464,7,109,8,2735,5,789505,1,30,96,128,240]

/-- Where word characters are not just the letters and the ignorable characters. -/
def wordExceptions : List (Nat × Nat) :=
  rangesOf 0 [39,1,6,1,1,11,35,3,71,1,6,1,4,1,2,1,544,6,151,1,14,2,1,1,466,3,1,2,42,1,104,2,107,10,
    1,1,132,10,198,10,190,1,122,1,55,1,2,3,8,4,1,2,22,10,18,2,58,3,6,2,2,2,10,1,14,10,19,1,58,3,37,
    10,19,1,58,3,8,1,1,2,25,10,18,2,58,1,1,1,6,2,2,2,10,1,14,10,78,2,1,2,3,3,1,3,10,1,14,10,17,3,61,
    4,33,10,18,2,58,1,1,5,2,2,1,2,9,2,15,10,3,1,14,2,58,3,5,3,1,3,10,1,14,10,18,2,75,3,6,8,6,10,2,2,
    13,48,1,2,12,7,9,10,39,2,1,1,1,5,1,24,1,1,1,10,1,2,9,1,2,5,1,1,9,10,2,4,64,10,20,2,63,1,128,45,
    4,1,6,1,2,2,2,11,6,8,2,4,3,16,4,13,1,2,2,6,1,15,1617,3,36,1,30,1,75,52,2,1,7,8,1,2,14,1,4,1,3,
    10,38,10,265,4,2,3,4,2,1,6,13,40,2,5,11,44,4,26,6,10,63,2,5,54,1,1,9,1,1,2,8,6,13,10,6,10,13,1,
    92,1,48,1,5,1,1,5,1,2,11,10,40,1,30,1,4,2,2,1,5,10,45,1,2,3,1,1,3,2,48,8,8,2,10,10,6,10,135,1,
    21,1,709,1,1,3,11,3,13,3,13,3,13,2,12,1,12,2,10,1,2,1,7,1,15,2,19,1,267,35,2,4,813,52,2844,1,39,
    2,1,5,11,86,4,5,1,90,1,4,240,16,512,6592,64,20992,1568,10,188,10,16,8,283,2,2,1,88,2,50,16,12,
    10,38,10,72,2,47,1,48,2,4,2,2,3,15,10,6,5,1,25,48,2,2,2,24,1,2,10,6,23,3,2,1,51,1,1,3,2,2,5,2,1,
    1,1,24,3,13,1,2,2,5,1,116,2,119,2,1,2,1,2,1,1,3,10,19718,366,2,106,216,17,592,1,31,2,24,3,2,1,2,
    1,177,1,6,1,1,11,35,3,37,56,69,1,348,53,460,1,8,1,134,5,202,10,2182,10,6,10,694,1,1,1,99,10,18,
    1,45,3,4,2,55,10,50,1,9,10,5,2,59,1,48,3,9,2,13,1,1,10,82,3,3,2,1,1,170,3,13,10,8,2,58,2,1,4,2,
    2,2,3,9,1,10,2,84,3,7,1,2,1,1,4,1,2,1,1,101,3,8,2,3,1,10,10,86,3,6,1,1,4,2,1,14,10,213,3,6,4,2,
    1,113,3,8,2,1,1,17,10,82,1,1,2,6,1,9,10,6,20,28,27,3,1,1,2,4,1,9,10,6,7,229,3,9,1,167,10,70,6,1,
    2,4,1,2,1,1,1,13,10,119,3,8,4,4,1,84,1,29,2,62,1,201,1,3,1,1,1,136,10,53,1,14,1,17,10,79,1,7,1,
    2,1,155,10,48,5,4,2,1,1,9,10,54,10,267,2,12,1,48,2,8,2,1,1,14,10,1190,111,15547,3,3,10,2342,10,
    86,10,134,10,534,10,471,55,104,4,12,7382,41,32,97,115,8701,4,1,7,1,2,1,291,15,1,29,3,2,1,14,4,8,
    396,6644,10,1131,2,6,6,1627,50,2368,10,422,10,502,10,247,10,853,10,2006,26,6,26,6,26,2662,10,
    1030,42720,32,4382,2,5774,2,7473,15,622,2466,542,1506,4939,5,8490]

def middleRanges : List (Nat × Nat) :=
  rangesOf 0 [39,1,6,1,11,1,124,1,719,1,471,1,148,1,6691,2,10,1,2,1,56811,1,62,1,2,1,177,1,6,1,11,1]

def isCased (c : Char) : Bool := inRanges casedRanges c.toNat

/-- Whether a character is skipped when looking for a cased neighbour. -/
def isCaseIgnorable (c : Char) : Bool := inRanges ignorableRanges c.toNat

/-- Whether a character keeps a word together when it stands alone inside it. -/
def isMiddle (c : Char) : Bool := inRanges middleRanges c.toNat

def isWord (c : Char) : Bool := (isLetter c || isCaseIgnorable c) != inRanges wordExceptions c.toNat

def isBreak (c : Char) : Bool := !(isWord c || isMiddle c)

end Stencil.Text
