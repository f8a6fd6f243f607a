import Stencil.Decimal.Reader

/-!
# Points in time in a YAML document

A point in time is a date, which may be followed by a time of day: after the letter `T` with a zone,
after blanks without one.  Months, days, hours, minutes and seconds may be written with one digit.
Without a zone the time is that of zone zero.
-/

namespace Stencil.Yaml

def digits (cs : List Char) : List Char × List Char :=
  cs.span fun c => '0' ≤ c && c ≤ '9'

def pad (n : Nat) : String := if n < 10 then s!"0{n}" else s!"{n}"

structure Moment where
  /-- The date: four digits, and two digits twice, with dashes between. -/
  date : String
  /-- The time of day: two digits three times, with colons between, and a fraction if it is not
  zero. -/
  clock : String
  offset : Int
  deriving DecidableEq, Repr

namespace Moment

/-! ## Writing -/

def zone (m : Moment) (between : String) : String :=
  let sign := if m.offset < 0 then "-" else "+"
  let minutes := m.offset.natAbs
  sign ++ pad (minutes / 60) ++ between ++ pad (minutes % 60)

def shown (m : Moment) : String :=
  let name := if m.offset = 0 then "UTC" else m.zone ""
  s!"{m.date} {m.clock} " ++ m.zone "" ++ " " ++ name

def stamp (m : Moment) : String :=
  s!"{m.date}T{m.clock}" ++ (if m.offset = 0 then "Z" else m.zone ":")

/-! ## Reading -/

/-- A number of one or two digits within bounds, and the rest. -/
def field? (low high : Nat) (cs : List Char) : Option (Nat × List Char) :=
  let (ds, _) := digits (cs.take 2)
  let n := Decimal.natOfDigits 10 ds
  if ds.isEmpty || n < low || high < n then none else some (n, cs.drop ds.length)

def daysIn (year month : Nat) : Nat :=
  if month = 2 then
    if year % 4 = 0 && (year % 100 ≠ 0 || year % 400 = 0) then 29 else 28
  else if [4, 6, 9, 11].contains month then 30 else 31

/-- The zone at the end of a time: `Z`, or a sign, hours and minutes. -/
def zone? (cs : List Char) : Option Int :=
  match cs with
  | ['Z'] => some 0
  | [sign, h, h', ':', m, m'] =>
    let hours := Decimal.natOfDigits 10 [h, h']
    let minutes := Decimal.natOfDigits 10 [m, m']
    let offset : Int := (hours * 60 + minutes : Nat)
    if [h, h', m, m'].any (!Decimal.isDigitOf 10 ·) || 24 < hours || 60 < minutes then none
    else if sign = '+' then some offset
    else if sign = '-' then some (-offset)
    else none
  | _ => none

/-- The fraction of a second, of which nine digits count, and the rest. -/
def fraction (cs : List Char) : String × List Char :=
  match cs with
  | mark :: more =>
    let (ds, rest) := digits more
    if (mark = '.' || mark = ',') && !ds.isEmpty then
      let kept := ((ds.take 9).reverse.dropWhile (· = '0')).reverse
      (if kept.isEmpty then "" else "." ++ String.ofList kept, rest)
    else ("", cs)
  | [] => ("", [])

def clock? (cs : List Char) : Option (String × Int) := do
  let separator :: cs := cs | none
  let cs := if separator = ' ' then cs.dropWhile (· = ' ') else cs
  let (hour, cs) ← field? 0 23 cs
  let ':' :: cs := cs | none
  let (minute, cs) ← field? 0 59 cs
  let ':' :: cs := cs | none
  let (second, cs) ← field? 0 59 cs
  let (part, cs) := fraction cs
  let offset ← if separator = ' ' then (if cs.isEmpty then some 0 else none)
    else if separator = 'T' || separator = 't' then zone? cs
    else none
  return (s!"{pad hour}:{pad minute}:{pad second}{part}", offset)

def ofChars? (cs : List Char) : Option Moment := do
  let (year, rest) := digits cs
  if year.length ≠ 4 then none
  let '-' :: rest := rest | none
  let (month, rest) ← field? 1 12 rest
  let '-' :: rest := rest | none
  let (day, rest) ← field? 1 (daysIn (Decimal.natOfDigits 10 year) month) rest
  let (clock, offset) ← if rest.isEmpty then some ("00:00:00", 0) else clock? rest
  return ⟨s!"{String.ofList year}-{pad month}-{pad day}", clock, offset⟩

end Moment
end Stencil.Yaml
