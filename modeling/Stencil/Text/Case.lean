import Stencil.Text.Ranges

/-!
# Case maps from one character to one character

The simple case maps of Unicode 17.  Each is a list of *runs*: a run says that every `step`-th
character from `first` to `last` moves by the same distance.  A character in no run stands for
itself, so the sharp s, which has no single capital, is its own capital here.
-/

set_option maxRecDepth 8000

namespace Stencil.Text

/-- Every `step`-th character from `first` to `last` is moved by `shift`. -/
structure CaseRun where
  first : Nat
  last : Nat
  step : Nat
  shift : Int

def CaseRun.covers (r : CaseRun) (n : Nat) : Bool :=
  r.first ≤ n && n ≤ r.last && (n - r.first) % r.step == 0

def CaseRun.back (r : CaseRun) : CaseRun :=
  ⟨Int.toNat (r.first + r.shift), Int.toNat (r.last + r.shift), r.step, -r.shift⟩

def mapCase (runs : List CaseRun) (c : Char) : Char :=
  match runs.find? (·.covers c.toNat) with
  | some r => Char.ofNat (Int.toNat (c.toNat + r.shift))
  | none => c

/-- Runs from a code point on, given by how many code points are left out, how many characters move,
and the step and the shift of the run. -/
def runsOf : Nat → List (Nat × Nat × Nat × Int) → List CaseRun
  | start, (gap, count, step, shift) :: rest =>
    let last := start + gap + (count - 1) * step
    ⟨start + gap, last, step, shift⟩ :: runsOf (last + 1) rest
  | _, [] => []

def upperRuns : List CaseRun :=
  runsOf 0 [(97,26,1,-32),(58,1,1,743),(42,23,1,-32),(1,7,1,-32),(0,1,1,121),(1,24,2,-1),
    (1,1,1,-232),(1,3,2,-1),(2,8,2,-1),(2,23,2,-1),(2,3,2,-1),(0,1,1,-300),(0,1,1,195),(2,2,2,-1),
    (2,1,1,-1),(3,1,1,-1),(5,1,1,-1),(2,1,1,97),(3,1,1,-1),(0,1,1,163),(0,1,1,42561),(2,1,1,130),
    (2,3,2,-1),(2,1,1,-1),(4,1,1,-1),(2,1,1,-1),(3,2,2,-1),(2,1,1,-1),(3,1,1,-1),(1,1,1,56),
    (5,1,1,-1),(0,1,1,-2),(1,1,1,-1),(0,1,1,-2),(1,1,1,-1),(0,1,1,-2),(1,8,2,-1),(0,1,1,-79),
    (1,9,2,-1),(2,1,1,-1),(0,1,1,-2),(1,1,1,-1),(3,20,2,-1),(3,9,2,-1),(8,1,1,-1),(2,2,1,10815),
    (1,1,1,-1),(4,5,2,-1),(0,1,1,10783),(0,1,1,10780),(0,1,1,10782),(0,1,1,-210),(0,1,1,-206),
    (1,2,1,-205),(1,1,1,-202),(1,1,1,-203),(0,1,1,42319),(3,1,1,-205),(0,1,1,42315),(1,1,1,-207),
    (0,1,1,42343),(0,1,1,42280),(0,1,1,42308),(1,1,1,-209),(0,1,1,-211),(0,1,1,42308),(0,1,1,10743),
    (0,1,1,42305),(2,1,1,-211),(1,1,1,10749),(0,1,1,-213),(2,1,1,-214),(7,1,1,10727),(2,1,1,-218),
    (1,1,1,42307),(0,1,1,-218),(3,1,1,42282),(0,1,1,-218),(0,1,1,-69),(0,2,1,-217),(0,1,1,-71),
    (5,1,1,-219),(10,1,1,42261),(0,1,1,42258),(166,1,1,84),(43,2,2,-1),(3,1,1,-1),(3,3,1,130),
    (46,1,1,-38),(0,3,1,-37),(1,17,1,-32),(0,1,1,-31),(0,9,1,-32),(0,1,1,-64),(0,2,1,-63),
    (1,1,1,-62),(0,1,1,-57),(3,1,1,-47),(0,1,1,-54),(0,1,1,-8),(1,12,2,-1),(0,1,1,-86),(0,1,1,-80),
    (0,1,1,7),(0,1,1,-116),(1,1,1,-96),(2,1,1,-1),(2,1,1,-1),(52,32,1,-32),(0,16,1,-80),(1,17,2,-1),
    (9,27,2,-1),(2,7,2,-1),(0,1,1,-15),(1,48,2,-1),(49,38,1,-48),(2889,43,1,3008),(2,3,1,3008),
    (760,6,1,-8),(2178,1,1,-6254),(0,1,1,-6253),(0,1,1,-6244),(0,2,1,-6242),(0,1,1,-6243),
    (0,1,1,-6236),(0,1,1,-6181),(0,1,1,35266),(1,1,1,-1),(238,1,1,35332),(3,1,1,3814),
    (16,1,1,35384),(114,75,2,-1),(5,1,1,-59),(5,48,2,-1),(0,8,1,8),(8,6,1,8),(10,8,1,8),(8,8,1,8),
    (8,6,1,8),(11,4,2,8),(8,8,1,8),(8,2,1,74),(0,4,1,86),(0,2,1,100),(0,2,1,128),(0,2,1,112),
    (0,2,1,126),(2,8,1,8),(8,8,1,8),(8,8,1,8),(8,2,1,8),(1,1,1,9),(10,1,1,-7205),(4,1,1,9),
    (12,2,1,8),(14,2,1,8),(3,1,1,7),(13,1,1,9),(346,1,1,-28),(33,16,1,-16),(4,1,1,-1),
    (843,26,1,-26),(1862,48,1,-48),(1,1,1,-1),(3,1,1,-10795),(0,1,1,-10792),(1,3,2,-1),(6,1,1,-1),
    (2,1,1,-1),(10,50,2,-1),(8,2,2,-1),(4,1,1,-1),(12,38,1,-7264),(1,1,1,-7264),(5,1,1,-7264),
    (30995,23,2,-1),(19,14,2,-1),(135,7,2,-1),(3,31,2,-1),(10,2,2,-1),(2,5,2,-1),(4,1,1,-1),
    (4,2,2,-1),(0,1,1,48),(2,10,2,-1),(11,8,2,-1),(4,2,2,-1),(2,8,2,-1),(26,1,1,-1),(860,1,1,-928),
    (28,80,1,-38864),(21377,26,1,-32),(1229,40,1,-40),(136,36,1,-40),(155,11,1,-39),(1,15,1,-39),
    (1,7,1,-39),(1,2,1,-39),(1795,51,1,-64),(125,22,1,-32),(2874,32,1,-32),(21888,32,1,-32),
    (59,25,1,-27),(31310,34,1,-34)]

/-- The runs of the map to small letters.  It leads back from the capitals, but for capitals that are
shared by several letters or that no letter has. -/
def lowerRuns : List CaseRun :=
  [⟨0x130,0x130,1,-199⟩,⟨0x1c4,0x1ca,3,2⟩,⟨0x1c5,0x1cb,3,1⟩,⟨0x1f1,0x1f1,1,2⟩,⟨0x1f2,0x1f2,1,1⟩,
   ⟨0x399,0x399,1,32⟩,⟨0x39c,0x39c,1,32⟩,⟨0x3a3,0x3a3,1,32⟩,⟨0x3f4,0x3f4,1,-60⟩,
   ⟨0x1e9e,0x1e9e,1,-7615⟩,⟨0x2126,0x2126,1,-7517⟩,⟨0x212a,0x212a,1,-8383⟩,⟨0x212b,0x212b,1,-8262⟩,
   ⟨0xa64a,0xa64a,1,1⟩]
    ++ upperRuns.map CaseRun.back

/-- The runs of the map to title case.  It differs from the map to capitals for the digraph letters,
which have a title case of their own, and for the Georgian letters, which have none. -/
def titleRuns : List CaseRun :=
  [⟨0x1c4,0x1ca,3,1⟩,⟨0x1c5,0x1cb,3,0⟩,⟨0x1c6,0x1cc,3,-1⟩,⟨0x1f1,0x1f1,1,1⟩,⟨0x1f2,0x1f2,1,0⟩,
   ⟨0x1f3,0x1f3,1,-1⟩,⟨0x10d0,0x10fa,1,0⟩,⟨0x10fd,0x10ff,1,0⟩]
    ++ upperRuns

def toUpper (c : Char) : Char := mapCase upperRuns c

def toLower (c : Char) : Char := mapCase lowerRuns c

def toTitle (c : Char) : Char := mapCase titleRuns c

def upper (s : String) : String := s.map toUpper

def lower (s : String) : String := s.map toLower

end Stencil.Text
