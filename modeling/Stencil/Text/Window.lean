/-!
# Working through a text in windows

A text that is changed character by character is worked through in *passes*.  A pass sees a window
of the text, so many bytes from where the last pass stopped, and has room for so many bytes of
output.  Both bounds can fall anywhere, so a pass says from time to time that it could stop here
(`Step.keep`).  What it read and wrote after that counts only when its window reaches the end of the
text; otherwise the next pass reads it again.

* `Step` — what a pass is made of: reading a character, writing some, keeping the place.
* `Outcome` — what one pass achieved, and what it was short of.
* `transform` — passes until the text is used up.  Windows have `standard` bytes and so has the
  output, until one of them turns out to be too short for any progress.

A rule that looks ahead sees no further than the window, and a rule that remembers what it saw
remembers it also when the place was not kept.  Both show in long words.
-/

namespace Stencil.Text

def bytes (cs : List Char) : Nat := cs.foldl (fun n c => n + c.utf8Size) 0

namespace Window

/-! ## Passes -/

inductive Stop
  | read
  | cut
  | full
  deriving DecidableEq, Repr

structure Pass where
  /-- The characters of the window that have not been read. -/
  ahead : List Char
  isCut : Bool
  room : Nat
  written : List Char
  /-- The characters that had not been read when the place was kept. -/
  keptAhead : List Char
  keptWritten : List Char
  /-- Whether the first cased character of the present word has been read. -/
  inWord : Bool

abbrev Step := EStateM Stop Pass

namespace Step

def peek : Step Char := do
  let p ← get
  match p.ahead with
  | c :: _ => return c
  | [] => throw (if p.isCut then .cut else .read)

def read : Step Char := do
  let c ← peek
  modify fun p => { p with ahead := p.ahead.tail }
  return c

def write (cs : List Char) : Step Unit := do
  let p ← get
  if p.room < bytes cs then throw .full
  set { p with room := p.room - bytes cs, written := cs.reverse ++ p.written }

def keep : Step Unit :=
  modify fun p => { p with keptAhead := p.ahead, keptWritten := p.written }

/-- Whether the first cased character of the present word has been read. -/
def isInWord : Step Bool := return (← get).inWord

/-- Says whether the first cased character of the present word has been read. -/
def setInWord (b : Bool) : Step Unit := modify fun p => { p with inWord := b }

end Step

/-! ## What a pass achieves -/

inductive Need
  | nothing
  | text
  | room
  deriving DecidableEq, Repr

structure Outcome where
  taken : List Char
  written : List Char
  need : Need
  /-- Whether the text goes on inside a word, as far as the pass saw. -/
  inWord : Bool

def fitting (size : Nat) : List Char → List Char
  | [] => []
  | c :: rest => if c.utf8Size ≤ size then c :: fitting (size - c.utf8Size) rest else []

/-- The pass at its start.  A window that does not reach the end of the text is always full, so it
ends inside a character when whole characters do not fill it. -/
def Pass.start (window : List Char) (isLast : Bool) (size room : Nat) (inWord : Bool) : Pass :=
  { ahead := window, isCut := !isLast && bytes window < size, room, written := [],
    keptAhead := window, keptWritten := [], inWord }

def Pass.outcome (p : Pass) (window : List Char) (isLast : Bool) (stop : Stop) : Outcome :=
  let kept (need : Need) : Outcome :=
    ⟨window.take (window.length - p.keptAhead.length), p.keptWritten.reverse, need, p.inWord⟩
  match stop with
  | .full => kept .room
  | .cut => kept .text
  | .read =>
    if p.keptAhead.isEmpty then kept .nothing
    else if isLast then ⟨window, p.written.reverse, .nothing, p.inWord⟩
    else kept .text

def perform (step : Step Unit) (size room : Nat) (inWord : Bool) (text : List Char) : Outcome :=
  let window := fitting size text
  let isLast := (text.drop window.length).isEmpty
  match step.run (.start window isLast size room inWord) with
  | .ok _ p => p.outcome window isLast .read
  | .error stop p => p.outcome window isLast stop

/-! ## Pass after pass -/

structure Work where
  rest : List Char
  done : List Char
  used : Nat
  size : Nat
  space : Nat
  inWord : Bool

/-- The bytes of the first windows, and of the first output. -/
def standard : Nat := 128

def wider (n : Nat) : Nat := if n ≤ 32 then 64 else if n ≤ 256 then 2 * n else n + n / 2

namespace Work

def start (text : List Char) : Work := ⟨text, [], 0, standard, standard, false⟩

def after (w : Work) (o : Outcome) : Work :=
  { w with
    rest := w.rest.drop o.taken.length, done := o.written.reverse ++ w.done
    used := w.used + bytes o.written, inWord := o.inWord }

/-- The passes over the beginning of a text, of `total` bytes, as long as they change nothing.  Each
of them has the whole output for itself; what is unchanged need not be held.  When a pass changes
the text, or cannot go on, the space for the output is made to fit what is there. -/
def unchanged (step : Step Unit) (total : Nat) : Nat → Work → Work
  | 0, w => w
  | n + 1, w =>
    let o := perform step w.size standard w.inWord w.rest
    let next := w.after o
    if o.written ≠ o.taken || o.need = .room || (o.need = .text && o.taken.isEmpty) then
      if next.used ≤ standard then next
      else { next with space := total + bytes o.written - bytes o.taken }
    else if next.rest.isEmpty then next
    else unchanged step total n next

/-- The passes over the rest of a text.  A pass without progress is made again with more room, or
with a larger window. -/
def finish (step : Step Unit) : Nat → Work → Work
  | 0, w => w
  | n + 1, w =>
    if w.rest.isEmpty then w
    else
      let o := perform step w.size (w.space - w.used) w.inWord w.rest
      let next := w.after o
      finish step n <| match o.need with
        | .nothing => next
        | .room => if o.written.isEmpty then { next with space := wider w.space } else next
        | .text => if o.taken.isEmpty then { next with size := wider w.size } else next

end Work

/-- A text after all its passes.  Every pass makes progress or is followed by one with larger
bounds, so their number is bounded by the length of the text. -/
def transform (step : Step Unit) (s : String) : String :=
  let text := s.toList
  let total := bytes text
  let passes := 4 * total + 64
  let w := Work.unchanged step total passes (.start text)
  String.ofList (w.finish step passes).done.reverse

end Window
end Stencil.Text
