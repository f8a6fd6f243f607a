import Stencil.Yaml.Moment

/-!
# Scalars of a YAML document

A scalar that is not quoted can be nothing, a truth value, a number or a point in time; what is none
of these is text.  `Scalar.ofPlain` decides by the text alone, and `Scalar.ofTagged` checks the
answer against a tag.
-/

namespace Stencil.Yaml

inductive Scalar
  | null
  | bool (b : Bool)
  | int (i : Int)
  | float (f : Float)
  | time (m : Moment)
  | text (s : String)

namespace Scalar

def tag : Scalar → String
  | null => "!!null"
  | bool _ => "!!bool"
  | int _ => "!!int"
  | float _ => "!!float"
  | time _ => "!!timestamp"
  | text _ => "!!str"

/-! ## Words -/

def word? (s : String) : Option Scalar :=
  if ["", "~", "null", "Null", "NULL"].contains s then some null
  else if ["true", "True", "TRUE"].contains s then some (bool true)
  else if ["false", "False", "FALSE"].contains s then some (bool false)
  else if [".nan", ".NaN", ".NAN"].contains s then some (float (0.0 / 0.0))
  else if [".inf", ".Inf", ".INF", "+.inf", "+.Inf", "+.INF"].contains s then
    some (float (1.0 / 0.0))
  else if ["-.inf", "-.Inf", "-.INF"].contains s then some (float (-1.0 / 0.0))
  else none

/-! ## Numbers -/

def baseOf : List Char → Nat × List Char
  | '0' :: x :: d :: ds =>
    if x = 'b' || x = 'B' then (2, d :: ds)
    else if x = 'o' || x = 'O' then (8, d :: ds)
    else if x = 'x' || x = 'X' then (16, d :: ds)
    else (8, x :: d :: ds)
  | '0' :: ds => (8, ds)
  | ds => (10, ds)

/-- An integer with an optional sign, in a base that its first digits tell.  It fits into 64 bits,
without a sign also if one of them is not needed for it. -/
def int? (cs : List Char) : Option Int :=
  let (negative, body) := Decimal.splitSign cs
  let (base, digits) := baseOf body
  if body.isEmpty || !digits.all (Decimal.isDigitOf base) then none
  else
    let n : Int := Decimal.natOfDigits base digits
    let i := if negative then -n else n
    let fits := Decimal.fitsInt64 i || (body.length = cs.length && n < 0x10000000000000000)
    if fits then some i else none

/-- Whether a text is an exponent, or nothing. -/
def isExponent : List Char → Bool
  | [] => true
  | e :: cs =>
    let (ds, rest) := digits (Decimal.splitSign cs).2
    (e = 'e' || e = 'E') && !ds.isEmpty && rest.isEmpty

def isDecimal (cs : List Char) : Bool :=
  let (whole, rest) := digits (Decimal.splitSign cs).2
  match rest with
  | '.' :: rest =>
    let (fraction, rest) := digits rest
    (!whole.isEmpty || !fraction.isEmpty) && isExponent rest
  | rest => !whole.isEmpty && isExponent rest

/-- An integer whose sign stands between the letter of its base and its digits. -/
def lateSign? (cs : List Char) : Option Int :=
  match cs with
  | '0' :: x :: sign :: d :: ds =>
    let base := if x = 'b' then 2 else if x = 'o' then 8 else 0
    if base ≠ 0 && (sign = '+' || sign = '-') && (d :: ds).all (Decimal.isDigitOf base) then
      let n : Int := Decimal.natOfDigits base (d :: ds)
      let i := if sign = '-' then -n else n
      if Decimal.fitsInt64 i then some i else none
    else none
  | _ => none

def number? (cs : List Char) : Option Scalar :=
  let cs := cs.filter (· != '_')
  match int? cs with
  | some i => some (int i)
  | none =>
    ((if isDecimal cs then (Decimal.float? (String.ofList cs)).map float else none)) <|>
      (lateSign? cs).map int

/-! ## Bytes -/

def sixBits? (c : Char) : Option Nat :=
  if 'A' ≤ c && c ≤ 'Z' then some (c.toNat - 65)
  else if 'a' ≤ c && c ≤ 'z' then some (c.toNat - 71)
  else if '0' ≤ c && c ≤ '9' then some (c.toNat + 4)
  else if c = '+' then some 62
  else if c = '/' then some 63
  else none

/-- The bytes of groups of four digits in base 64; the last group may end in one or two `=`. -/
def bytesOfDigits? : List Char → Option (List UInt8)
  | [] => some []
  | a :: b :: '=' :: '=' :: rest => do
    let n := (← sixBits? a) * 64 + (← sixBits? b)
    if rest.isEmpty then some [UInt8.ofNat (n / 16)] else none
  | a :: b :: c :: '=' :: rest => do
    let n := ((← sixBits? a) * 64 + (← sixBits? b)) * 64 + (← sixBits? c)
    if rest.isEmpty then some [UInt8.ofNat (n / 1024), UInt8.ofNat (n / 4)] else none
  | a :: b :: c :: d :: rest => do
    let n := (((← sixBits? a) * 64 + (← sixBits? b)) * 64 + (← sixBits? c)) * 64 + (← sixBits? d)
    let more ← bytesOfDigits? rest
    return UInt8.ofNat (n / 65536) :: UInt8.ofNat (n / 256) :: UInt8.ofNat n :: more
  | _ => none

/-- The text whose bytes are written in base 64, with line breaks anywhere. -/
def ofBytes? (s : String) : Option String := do
  let bytes ← bytesOfDigits? (s.toList.filter fun c => c != '\n' && c != '\r')
  String.fromUTF8? ⟨bytes.toArray⟩

/-! ## Everything -/

/-- The scalar of a text that is not quoted.  The first character says what it can be. -/
def ofChars (timed : Bool) (s : String) : Scalar :=
  match word? s with
  | some w => w
  | none => match s.toList with
    | [] => null
    | c :: cs =>
      let found :=
        if c = '.' then (Decimal.float? s).map float
        else if Decimal.isDigitOf 10 c then
          (if timed then (Moment.ofChars? (c :: cs)).map time else none) <|> number? (c :: cs)
        else if c = '+' || c = '-' then number? (c :: cs)
        else none
      found.getD (text s)

def ofPlain (s : String) : Scalar := ofChars true s

/-- The scalar of a text with a tag, or what is wrong with it.  An integer can be a double, and
everything can be text. -/
def ofTagged (tag s : String) : Except String Scalar :=
  if tag = "!!str" || (tag = "!!merge" && s = "<<") then .ok (text s)
  else if tag = "!!binary" then
    match ofBytes? s with
    | some t => .ok (text t)
    | none => .error "!!binary value contains invalid base64 data"
  else
    let found := ofChars (tag = "!!timestamp") s
    if found.tag = tag then .ok found
    else match found with
      | int i =>
        if tag = "!!float" && Decimal.fitsInt64 i then .ok (float (Decimal.ofInt i))
        else .error s!"cannot decode !!int \x60{s}\x60 as a {tag}"
      | _ => .error s!"cannot decode {found.tag} \x60{s}\x60 as a {tag}"

end Scalar
end Stencil.Yaml
