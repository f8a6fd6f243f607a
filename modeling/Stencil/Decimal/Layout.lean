import Stencil.Decimal.Shortest

/-!
# Decimal notation

How the digits of a number are laid out: positionally, or with one digit before the point and an
exponent.  A `Notation` says which exponents are written positionally and how an exponent looks; the
kinds of numbers that are printed differ in nothing else.
-/

namespace Stencil.Decimal

structure Layout where
  /-- The smallest decimal exponent that is written positionally, if there is one. -/
  least : Option Int
  /-- The first decimal exponent above that is not, if there is one. -/
  limit : Option Int
  mark : Char
  /-- The least number of digits of an exponent. -/
  width : Nat
  deriving Repr

/-- Positional notation up to a million, as in program listings. -/
def Layout.general : Layout := ⟨some (-4), some 6, 'e', 2⟩

def Layout.positional : Layout := ⟨none, none, 'e', 2⟩

def Layout.scientific : Layout := ⟨some 0, some 0, 'E', 2⟩

/-- Positional notation from a millionth up to `10 ^ 21`, and short exponents. -/
def Layout.interchange : Layout := ⟨some (-6), some 21, 'e', 1⟩

def positionalChars (d : Digits) : List Char :=
  if d.point ≤ 0 then
    if d.digits.isEmpty then ['0']
    else '0' :: '.' :: (List.replicate (-d.point).toNat '0' ++ d.digits)
  else
    let n := d.point.toNat
    let whole := d.digits.take n ++ List.replicate (n - d.digits.length) '0'
    match d.digits.drop n with
    | [] => whole
    | fraction => whole ++ '.' :: fraction

def paddedChars (width n : Nat) : List Char :=
  let digits := Nat.toDigits 10 n
  List.replicate (width - digits.length) '0' ++ digits

def exponentChars (l : Layout) (d : Digits) : List Char :=
  let (first, rest) := match d.digits with
    | [] => ('0', [])
    | c :: cs => (c, cs)
  let exponent := if d.digits.isEmpty then 0 else d.point - 1
  let fraction := if rest.isEmpty then [] else '.' :: rest
  let sign := if exponent < 0 then '-' else '+'
  first :: fraction ++ l.mark :: sign :: paddedChars l.width exponent.natAbs

def Layout.chars (l : Layout) (d : Digits) : List Char :=
  let exponent := if d.digits.isEmpty then 0 else d.point - 1
  let small := match l.least with
    | some e => exponent < e
    | none => false
  let large := match l.limit with
    | some e => e ≤ exponent
    | none => false
  if small || large then exponentChars l d else positionalChars d

def signed (negative : Bool) (cs : List Char) : String :=
  String.ofList (if negative then '-' :: cs else cs)

def Layout.print (l : Layout) (f : Float) : String :=
  signed (isNegative f) (l.chars (shortest f))

def general (f : Float) : String :=
  if f.isNaN then "NaN"
  else if f.isInf then (if f < 0 then "-Inf" else "+Inf")
  else Layout.general.print f

def fixed (f : Float) (places : Nat) : String :=
  let p := parts f
  let (n, d) := power p.mantissa p.exponent places
  let digits := paddedChars (places + 1) (roundDiv n d)
  let whole := digits.take (digits.length - places)
  signed p.negative
    (if places = 0 then whole else whole ++ '.' :: digits.drop (digits.length - places))

end Stencil.Decimal
