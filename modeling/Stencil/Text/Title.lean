import Stencil.Text.Case
import Stencil.Text.Window
import Stencil.Text.Word

/-!
# Title case, and small letters that know about words

The one-to-one maps of `Stencil.Text.Case` are not enough for running text: a ligature is spelled
out when its first letter becomes a capital, the dotted capital I leaves its dot behind, and the
Greek sigma has a form of its own at the end of a word.  This file reads text left to right, in the
passes of `Stencil.Text.Window`, and keeps track of words with the classes of `Stencil.Text.Word`.

* `lowerText` — all small letters.  A capital sigma inside a word takes its final form when no
  cased character follows it, ignorable characters aside.
* `titleText` — the first cased character of each word in title case, the others small.
* `capitalize` — small letters, and the first character in title case.

Inside a word a sigma decides its form by what stands in the same window, and it looks past thirty
ignorable characters at most.
-/

namespace Stencil.Text

/-! ## Maps from one character to several -/

/-- The characters whose title case is spelled with several characters. -/
def longTitles : List (Nat × List Nat) :=
  [(0xdf,[0x53,0x73]),(0x149,[0x2bc,0x4e]),(0x1f0,[0x4a,0x30c]),(0x390,[0x399,0x308,0x301]),
   (0x3b0,[0x3a5,0x308,0x301]),(0x587,[0x535,0x582]),(0x1e96,[0x48,0x331]),(0x1e97,[0x54,0x308]),
   (0x1e98,[0x57,0x30a]),(0x1e99,[0x59,0x30a]),(0x1e9a,[0x41,0x2be]),(0x1f50,[0x3a5,0x313]),
   (0x1f52,[0x3a5,0x313,0x300]),(0x1f54,[0x3a5,0x313,0x301]),(0x1f56,[0x3a5,0x313,0x342]),
   (0x1fb2,[0x1fba,0x345]),(0x1fb4,[0x386,0x345]),(0x1fb6,[0x391,0x342]),
   (0x1fb7,[0x391,0x342,0x345]),(0x1fc2,[0x1fca,0x345]),(0x1fc4,[0x389,0x345]),
   (0x1fc6,[0x397,0x342]),(0x1fc7,[0x397,0x342,0x345]),(0x1fd2,[0x399,0x308,0x300]),
   (0x1fd3,[0x399,0x308,0x301]),(0x1fd6,[0x399,0x342]),(0x1fd7,[0x399,0x308,0x342]),
   (0x1fe2,[0x3a5,0x308,0x300]),(0x1fe3,[0x3a5,0x308,0x301]),(0x1fe4,[0x3a1,0x313]),
   (0x1fe6,[0x3a5,0x342]),(0x1fe7,[0x3a5,0x308,0x342]),(0x1ff2,[0x1ffa,0x345]),
   (0x1ff4,[0x38f,0x345]),(0x1ff6,[0x3a9,0x342]),(0x1ff7,[0x3a9,0x342,0x345]),(0xfb00,[0x46,0x66]),
   (0xfb01,[0x46,0x69]),(0xfb02,[0x46,0x6c]),(0xfb03,[0x46,0x66,0x69]),(0xfb04,[0x46,0x66,0x6c]),
   (0xfb05,[0x53,0x74]),(0xfb06,[0x53,0x74]),(0xfb13,[0x544,0x576]),(0xfb14,[0x544,0x565]),
   (0xfb15,[0x544,0x56b]),(0xfb16,[0x54e,0x576]),(0xfb17,[0x544,0x56d])]

/-- The title case of a character, spelled out where it takes several characters. -/
def titleChars (c : Char) : List Char :=
  match longTitles.find? (·.1 == c.toNat) with
  | some (_, cs) => cs.map Char.ofNat
  | none => [toTitle c]

/-- The small form of a character; the dotted capital I becomes an i and a dot above. -/
def lowerChars (c : Char) : List Char :=
  if c.toNat = 0x130 then ['i', Char.ofNat 0x307] else [toLower c]

/-! ## The final sigma -/

def capitalSigma : Char := Char.ofNat 0x3a3

/-- The characters a sigma looks at, to find one after thirty that are ignorable. -/
def sigmaReach : Nat := 31

/-- The small form of a capital sigma followed by `rest`: the final one unless the first character
that is not ignorable is within reach and cased. -/
def sigmaBefore (rest : List Char) : Char :=
  match (rest.take sigmaReach).dropWhile isCaseIgnorable with
  | c :: _ => if isCased c then Char.ofNat 0x3c3 else Char.ofNat 0x3c2
  | [] => Char.ofNat 0x3c2

open Window (Step)

/-- Copies at most `n` ignorable characters.  A break among them ends the word, and so do two middle
characters in a row; `afterMiddle` tells whether the last character was one. -/
def passIgnorable : Nat → Bool → Step Unit
  | 0, _ => return ()
  | n + 1, afterMiddle => do
    if isCaseIgnorable (← Step.peek) then
      let c ← Step.read
      if afterMiddle && isMiddle c || isBreak c then Step.setInWord false
      Step.write [c]
      passIgnorable n (isMiddle c)

/-- Writes a character of a word that has begun in its small form. -/
def writeSmall (c : Char) : Step Unit := do
  if c = capitalSigma then
    Step.write [sigmaBefore (← get).ahead]
    passIgnorable sigmaReach false
  else Step.write (lowerChars c)

/-! ## Small letters -/

/-- Small letters for the next `n` characters.  Outside a word a sigma has its ordinary form. -/
def lowerPass : Nat → Bool → Step Unit
  | 0, _ => return ()
  | n + 1, inWord => do
    let c ← Step.read
    if inWord && (isCased c || isCaseIgnorable c) then writeSmall c
    else Step.write (if isCased c then lowerChars c else [c])
    Step.keep
    lowerPass n (isCased c || inWord && isCaseIgnorable c)

def lowerText (s : String) : String :=
  Window.transform (do lowerPass ((← get).ahead.length + 1) false) s

/-! ## Words -/

/-- Title case for a character that has been read and for at most `n` after it.  The place is not
kept between a middle character and the next one, which together may end the word. -/
def titlePass : Nat → Char → Step Unit
  | 0, _ => return ()
  | n + 1, c => do
    if isCased c then
      if ← Step.isInWord then writeSmall c
      else
        Step.write (titleChars c)
        Step.setInWord true
    else
      Step.write [c]
      if isBreak c then Step.setInWord false
    if !(← Step.isInWord) || !isMiddle c then Step.keep
    let next ← Step.read
    if isMiddle c && isMiddle next then Step.setInWord false
    titlePass n next

def titleText (s : String) : String :=
  Window.transform (do titlePass ((← get).ahead.length + 1) (← Step.read)) s

/-- Small letters after a first character in title case. -/
def capitalize (s : String) : String :=
  match (lowerText s).toList with
  | [] => ""
  | c :: rest => String.ofList (toTitle c :: rest)

end Stencil.Text
