import Stencil.Text.Word

/-!
# Printable characters

A character is shown as itself when it is a letter, a mark, a number, punctuation or a symbol of
Unicode 17, or the plain space.  Every other character is written as an escape by
`Stencil.Text.Quoted`; that includes all other kinds of space.
-/

set_option maxRecDepth 8000

namespace Stencil.Text

/-- Where the printable characters are not just the letters and the characters of words. -/
def printableExceptions : List (Nat × Nat) :=
  rangesOf 0 [32,16,10,7,26,4,1,1,26,4,34,9,1,10,1,2,1,1,1,5,23,1,31,1,480,6,151,1,8,1,5,2,1,1,110,
    1,139,1,218,1,1,1,41,1,3,3,46,1,1,1,2,1,2,1,45,1,11,16,11,5,74,1,1,2,102,1,8,2,10,1,19,2,1,14,1,
    1,230,4,4,2,48,15,31,1,41,1,7,2,80,1,129,2,10,1,129,10,1,1,120,1,121,2,126,1,1,6,120,11,124,9,4,
    1,202,1,8,7,17,10,122,1,74,1,15,1,10,2,165,23,2,6,10,11,1,1,1,1,1,4,71,1,56,8,1,6,1,13,111,6,78,
    2,91,1,612,29,19,10,102,1,620,2,44,2,78,3,71,2,157,3,1,4,20,10,6,11,3,1,305,1,3,2,148,1,3,34,30,
    2,128,7,1,6,160,2,10,17,9,12,124,4,59,5,62,2,64,8,11,1,745,1,1,3,11,3,13,3,13,3,13,2,13,28,2,21,
    2,19,1,10,1,5,1,11,3,11,1,15,17,34,62,2,1,4,1,2,10,1,1,3,5,6,1,1,1,1,1,1,4,1,11,2,4,5,5,4,1,17,
    41,3,4,666,22,11,21,86,52,1674,2,138,229,6,14,7,112,1,143,47,1,46,34,26,1,89,12,214,26,16,1,4,2,
    35,6,1,5,5,2,3,91,2,3,1,90,1,148,16,32,38,9,1,16,31,1,480,6592,64,22160,55,55,2,269,3,99,1,10,1,
    115,6,8,8,288,4,4,10,58,4,86,2,40,3,1,1,49,2,47,1,97,13,16,2,124,4,23,3,100,2,16,2,120,2,127,1,
    20285,1,136,33,363,18,64,2,54,8,44,4,16,10,22,3,2,24,3,3,1,19,1,4,147,1,1,15,10,7,26,4,1,1,26,
    11,122,7,1,7,10,5,258,3,4,45,3,9,53,26,1,13,3,1,47,45,228,27,36,4,123,1,48,1,414,1,743,9,23,9,
    39,9,75,5,22,6,3,1,31,1,124,2,2,16,2,46,64,9,7,9,36,3,29,3,40,1,34,12,66,7,24,8,24,8,25,4,12,7,
    330,6,110,1,31,2,208,31,46,1,34,9,68,10,42,9,44,4,59,7,123,7,4,20,85,7,11,1,114,4,48,2,79,4,4,1,
    13,1,1,3,1,20,67,6,107,1,298,2,1,2,114,5,10,2,1,1,104,1,250,23,105,3,28,13,76,1,128,6,251,1,174,
    9,81,3,155,1,92,8,83,3,1,5,93,10,215,1,95,5,20,19,3,2,645,2,74,13,112,50,13,1,1136,5,2940,2,
    1085,16,13870,2,133,1,65,9,4,2,21,7,523,3,272,27,327,1,17,3,19621,1,2,5,3932,240,10,3,3,436,6,
    23,15,17,95,116,60,246,10,39,2,60,5,3,6,8,8,2,7,30,4,61,21,66,3,1,122,20,12,20,12,87,9,25,840,1,
    25,1,31,1,25,1,31,1,25,1,31,1,25,1,31,1,25,1,60,512,55,4,50,8,1,14,1,7,1731,1,431,1,767,1,711,9,
    142,2,785,68,76,61,434,2,270,44,4,100,12,15,2,15,1,15,1,37,10,48,26,6,26,6,26,36,56,29,13,44,4,
    9,7,2,14,6,154,251,5,729,3,17,3,13,3,218,6,12,4,1,15,12,4,56,8,10,6,40,8,30,2,12,4,2,14,9,39,
    344,8,14,2,13,3,11,3,57,1,1,4,16,2,12,4,10,7,147,1,92,10,1,787462,1,30,96]

/-- Whether a character is shown as itself inside quotation marks. -/
def isPrintable (c : Char) : Bool :=
  (isLetter c || isWord c) != inRanges printableExceptions c.toNat

end Stencil.Text
