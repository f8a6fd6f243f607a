import Stencil.Decimal.Binary
import Stencil.Yaml.Cursor

/-!
# Names, tags and directives of a YAML document

A node may be given a name, by which it can be used again, and a tag, which says of what type it is.
A tag is a handle and a suffix: `!!int` has the handle `!!` and the suffix `int`.  What a handle
stands for is said by a directive before the document.  A tag between `!<` and `>` is written out and
has no handle.
-/

namespace Stencil.Yaml

def isNameChar (c : Char) : Bool :=
  ('0' ≤ c && c ≤ '9') || ('A' ≤ c && c ≤ 'Z') || ('a' ≤ c && c ≤ 'z') || c = '_' || c = '-'

def isTagChar (c : Char) : Bool :=
  isNameChar c || [';', '/', '?', ':', '@', '&', '=', '+', '$', '.', ',', '!', '~', '*', '\'',
    '(', ')', '[', ']', '%'].contains c

namespace Cursor

/-! ## Names -/

def endsName (c : Cursor) : Bool :=
  c.endsAt 0 || (c.peek 0).any ['?', ':', ',', ']', '}', '%', '@', '\x60'].contains

def name (c : Cursor) : Except Complaint (String × Cursor) :=
  let (word, after) := c.next.span isNameChar
  if word.isEmpty || !after.endsName then
    .error (.ofCharacters c.mark after.mark
      "did not find expected alphabetic or numeric character")
  else .ok (String.ofList word, after)

/-! ## Tags -/

def widthOf (byte : Nat) : Nat :=
  if byte < 0x80 then 1
  else if byte / 32 = 6 then 2
  else if byte / 16 = 14 then 3
  else if byte / 8 = 30 then 4
  else 0

/-- Reads a byte that is written as `%` and two hexadecimal digits. -/
def escapedByte (c : Cursor) (start : Mark) : Except Complaint (Nat × Cursor) :=
  match c.rest with
  | '%' :: high :: low :: _ => match hexValue? [high, low] with
    | some byte => .ok (byte, c.skip 3)
    | none => .error (.ofCharacters start c.mark "did not find URI escaped octet")
  | _ => .error (.ofCharacters start c.mark "did not find URI escaped octet")

def escapedTail (start : Mark) : Nat → Nat → Cursor → Except Complaint (Nat × Cursor)
  | 0, value, c => .ok (value, c)
  | n + 1, value, c => do
    let (byte, after) ← c.escapedByte start
    if byte / 64 ≠ 2 then
      throw (.ofCharacters start c.mark "found an incorrect trailing UTF-8 octet")
    escapedTail start n (value * 64 + byte % 64) after

/-- Reads a character that is written byte by byte. -/
def escapedChar (c : Cursor) (start : Mark) : Except Complaint (Char × Cursor) := do
  let (byte, after) ← c.escapedByte start
  let width := widthOf byte
  if width = 0 then throw (.ofCharacters start c.mark "found an incorrect leading UTF-8 octet")
  let bits := if width = 1 then byte else byte % Decimal.twoPow (7 - width)
  let (value, after) ← escapedTail start (width - 1) bits after
  return (Char.ofNat value, after)

def tagChars (start : Mark) : Nat → List Char → Cursor → Except Complaint (List Char × Cursor)
  | 0, back, c => .ok (back.reverse, c)
  | fuel + 1, back, c =>
    match c.peek 0 with
    | none => .ok (back.reverse, c)
    | some x =>
      if x = '%' then do
        let (y, after) ← c.escapedChar start
        tagChars start fuel (y :: back) after
      else if isTagChar x then tagChars start fuel (x :: back) c.next
      else .ok (back.reverse, c)

/-- Reads the characters of a tag, of which there has to be one unless something stands before
them. -/
def tagText (c : Cursor) (start : Mark) (bare : Bool) : Except Complaint (List Char × Cursor) := do
  let (text, after) ← tagChars start c.rest.length [] c
  if bare && text.isEmpty then
    throw (.ofCharacters start after.mark "did not find expected tag URI")
  return (text, after)

/-- Reads `!`, a name, and another `!` if there is one. -/
def tagHandle (c : Cursor) : List Char × Cursor :=
  let (word, after) := c.next.span isNameChar
  if after.peek 0 == some '!' then ('!' :: word ++ ['!'], after.next) else ('!' :: word, after)

/-- Reads a tag between `!<` and `>`. -/
def wholeTag (c : Cursor) : Except Complaint (List Char × Cursor) := do
  let (text, after) ← (c.skip 2).tagText c.mark true
  if after.peek 0 == some '>' then return (text, after.next)
  throw (.ofCharacters c.mark after.mark "did not find the expected '>'")

/-- Reads the handle and the suffix of a tag.  Without a second `!` the handle is the first one
alone, and the tag `!` is a suffix without a handle. -/
def tagParts (c : Cursor) : Except Complaint (String × String × Cursor) := do
  if c.peek 1 == some '<' then
    let (text, after) ← c.wholeTag
    return ("", String.ofList text, after)
  let (handle, after) := c.tagHandle
  if 1 < handle.length && handle.getLast? == some '!' then
    let (text, after) ← after.tagText c.mark true
    return (String.ofList handle, String.ofList text, after)
  let (text, after) ← after.tagText c.mark false
  let suffix := handle.drop 1 ++ text
  if suffix.isEmpty then return ("", "!", after) else return ("!", String.ofList suffix, after)

def tag (c : Cursor) : Except Complaint (String × String × Cursor) := do
  let (handle, suffix, after) ← c.tagParts
  if !after.endsAt 0 then
    throw (.ofCharacters c.mark after.mark "did not find expected whitespace or line break")
  return (handle, suffix, after)

/-! ## Directives -/

def versionNumber (c : Cursor) (start : Mark) : Except Complaint (Nat × Cursor) :=
  let (word, after) := c.span fun x => '0' ≤ x && x ≤ '9'
  if word.isEmpty then
    .error (.ofCharacters start c.mark "did not find expected version number")
  else if 2 < word.length then
    .error (.ofCharacters start (c.skip 2).mark "found extremely long version number")
  else .ok (word.foldl (fun n x => n * 10 + (x.toNat - 48)) 0, after)

def version (c : Cursor) (start : Mark) : Except Complaint (Token.Kind × Cursor) := do
  let (major, c) ← (c.span isBlank).2.versionNumber start
  if c.peek 0 != some '.' then
    throw (.ofCharacters start c.mark "did not find expected digit or '.' character")
  let (minor, c) ← c.next.versionNumber start
  return (.version major minor, c)

def handle (c : Cursor) (start : Mark) : Except Complaint (Token.Kind × Cursor) := do
  let c := (c.span isBlank).2
  if c.peek 0 != some '!' then
    throw (.ofCharacters start c.mark "did not find expected '!'")
  let (name, c) := c.tagHandle
  if name != ['!'] && name.getLast? != some '!' then
    throw (.ofCharacters start c.mark "did not find expected '!'")
  if !(c.peek 0).any isBlank then
    throw (.ofCharacters start c.mark "did not find expected whitespace")
  let (lead, c) ← (c.span isBlank).2.tagText start true
  if !c.endsAt 0 then
    throw (.ofCharacters start c.mark "did not find expected whitespace or line break")
  return (.handle (String.ofList name) (String.ofList lead), c)

def directiveParts (c : Cursor) : Except Complaint (Token.Kind × Cursor) := do
  let start := c.mark
  let (word, c) := c.next.span isNameChar
  if word.isEmpty then
    throw (.ofCharacters start c.mark "could not find expected directive name")
  if !c.endsAt 0 then
    throw (.ofCharacters start c.mark "found unexpected non-alphabetical character")
  match String.ofList word with
  | "YAML" => c.version start
  | "TAG" => c.handle start
  | _ => throw (.ofCharacters start c.mark "found unknown directive name")

def directive (c : Cursor) : Except Complaint (Token.Kind × Cursor) := do
  let (kind, after) ← c.directiveParts
  let after := (after.span isBlank).2
  let after := if after.peek 0 == some '#' then (after.span fun x => !isBreak x).2 else after
  if !after.atLineEnd then
    throw (.ofCharacters c.mark after.mark "did not find expected comment or line break")
  return (kind, if after.rest.isEmpty then after else after.nextLine)

end Cursor
end Stencil.Yaml
