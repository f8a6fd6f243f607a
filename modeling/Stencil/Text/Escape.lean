import Stencil.Text.Quoted

/-!
# Escaping for documents and addresses

`markup` replaces the five characters that mean something in a document, and `address` writes every
byte that may not stand in a segment of an address as a percent sign and two digits.
-/

namespace Stencil.Text

def markupChar (c : Char) : List Char :=
  if c == '&' then "&amp;".toList
  else if c == '\'' then "&#39;".toList
  else if c == '<' then "&lt;".toList
  else if c == '>' then "&gt;".toList
  else if c == '"' then "&#34;".toList
  else [c]

def markup (s : String) : String := String.ofList (s.toList.flatMap markupChar)

def isAddressByte (b : UInt8) : Bool :=
  let c := Char.ofNat b.toNat
  c.isAlphanum || "-_.~$&+=:@".toList.contains c

def capitalHexDigit (n : Nat) : Char := (hexDigit n).toUpper

def addressByte (b : UInt8) : List Char :=
  if isAddressByte b then [Char.ofNat b.toNat]
  else ['%', capitalHexDigit (b.toNat / 16), capitalHexDigit (b.toNat % 16)]

def address (s : String) : String := String.ofList (s.toUTF8.toList.flatMap addressByte)

end Stencil.Text
