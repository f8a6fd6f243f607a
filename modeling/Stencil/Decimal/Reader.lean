import Stencil.Decimal.Binary

/-!
# Reading numbers

Two readers of numbers in text.

* `int64?` — an optional sign and decimal digits, within 64 bits.
* `float?` — a decimal or hexadecimal number with an optional fraction and exponent, an infinity or
  a not-a-number, in any case.  Single underscores may stand between digits.  The result is the
  nearest double; a number that is too large is refused.
-/

namespace Stencil.Decimal

/-! ## Integers -/

def digitValue (c : Char) : Option Nat :=
  if '0' ≤ c && c ≤ '9' then some (c.toNat - 48)
  else if 'a' ≤ c && c ≤ 'f' then some (c.toNat - 87)
  else if 'A' ≤ c && c ≤ 'F' then some (c.toNat - 55)
  else none

def isDigitOf (base : Nat) (c : Char) : Bool := (digitValue c).any (· < base)

def natOfDigits (base : Nat) (cs : List Char) : Nat :=
  cs.foldl (fun n c => n * base + (digitValue c).getD 0) 0

def splitSign : List Char → Bool × List Char
  | '-' :: rest => (true, rest)
  | '+' :: rest => (false, rest)
  | rest => (false, rest)

def fitsInt64 (i : Int) : Bool := -0x8000000000000000 ≤ i && i < 0x8000000000000000

/-- An integer of 64 bits: an optional sign and decimal digits. -/
def int64? (s : String) : Option Int :=
  let (negative, digits) := splitSign s.toList
  if digits.isEmpty || !digits.all (isDigitOf 10) then none
  else
    let n : Int := natOfDigits 10 digits
    let i := if negative then -n else n
    if fitsInt64 i then some i else none

/-! ## Floating-point numbers -/

/-- A number as it was written: digits, digits after the point, and an exponent of ten or, for a
hexadecimal number, of two. -/
structure Written where
  base : Nat
  digits : List Char
  places : Nat
  exponent : Int
  deriving Repr

/-- The double nearest to a number without its sign, or nothing when it is too large. -/
def Written.nearest? (w : Written) : Option Float :=
  let n := natOfDigits w.base w.digits
  if n = 0 then some 0.0
  else if w.base = 16 then
    let exponent := w.exponent - 4 * w.places
    let size := bitLength n + exponent
    if 1100 < size then none
    else if size < -1200 then some 0.0
    else Decimal.nearest? (n * twoPow exponent.toNat) (twoPow (-exponent).toNat)
  else
    let exponent := w.exponent - w.places
    let size := (Nat.toDigits 10 n).length + exponent
    if 320 < size then none
    else if size < -350 then some 0.0
    else Decimal.nearest? (n * tenPow exponent.toNat) (tenPow (-exponent).toNat)

/-- Whether every underscore of a number stands between two digits; `previous` is the character
before, a digit standing also for the mark of a base. -/
def underscoresFit (hex : Bool) (previous : Char) : List Char → Bool
  | [] => previous != '_'
  | c :: rest =>
    if isDigitOf (if hex then 16 else 10) c then underscoresFit hex '0' rest
    else if c == '_' then previous == '0' && underscoresFit hex '_' rest
    else previous != '_' && underscoresFit hex '!' rest

/-- The exponent after its letter: an optional sign and digits, nothing after them. -/
def exponent? (cs : List Char) : Option Int :=
  let (negative, digits) := splitSign cs
  match digits with
  | [] => none
  | c :: _ =>
    if isDigitOf 10 c && digits.all (fun d => isDigitOf 10 d || d == '_') then
      let n : Int := natOfDigits 10 (digits.filter (· != '_'))
      some (if negative then -n else n)
    else none

/-- The parts of a number without sign and base mark. -/
def written? (hex : Bool) (cs : List Char) : Option Written :=
  let base := if hex then 16 else 10
  let isPart (c : Char) : Bool := isDigitOf base c || c == '_'
  let whole := cs.takeWhile isPart
  let (fraction, rest) := match cs.dropWhile isPart with
    | '.' :: after => (after.takeWhile isPart, after.dropWhile isPart)
    | after => ([], after)
  let digits := (whole ++ fraction).filter (· != '_')
  let places := (fraction.filter (· != '_')).length
  if digits.isEmpty then none
  else match rest with
    | [] => if hex then none else some ⟨base, digits, places, 0⟩
    | c :: after =>
      if c == (if hex then 'p' else 'e') || c == (if hex then 'P' else 'E') then
        (exponent? after).map fun e => ⟨base, digits, places, e⟩
      else none

/-- The words for the numbers that are not finite, in small letters. -/
def special? (s : List Char) : Option Float :=
  match String.ofList (s.map Char.toLower) with
  | "inf" | "+inf" | "infinity" | "+infinity" => some (1.0 / 0.0)
  | "-inf" | "-infinity" => some (-1.0 / 0.0)
  | "nan" => some (0.0 / 0.0)
  | _ => none

def float? (s : String) : Option Float :=
  match special? s.toList with
  | some f => some f
  | none =>
    let (negative, body) := splitSign s.toList
    let (hex, digits) := match body with
      | '0' :: 'x' :: c :: rest => (true, c :: rest)
      | '0' :: 'X' :: c :: rest => (true, c :: rest)
      | _ => (false, body)
    if underscoresFit hex (if hex then '0' else '^') digits then
      ((written? hex digits).bind Written.nearest?).map fun f => if negative then -f else f
    else none

end Stencil.Decimal
