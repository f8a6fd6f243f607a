import Stencil.Callable
import Stencil.Dump
import Stencil.Json
import Stencil.Operation
import Stencil.Text.Escape
import Stencil.Text.Title

/-!
# The filters of the language
-/

namespace Stencil.Language

open Arguments (needed optional)
open Callable (make ofValue)
open Text (quoted)

/-! ## Texts -/

def onText (name : String) (f : String → String) : Callable :=
  ofValue name fun v => return .text (f (← Act.print v))

def printed? (v : Value) : Act (Option String) :=
  if v.isNull then pure none else some <$> Act.print v

def trimmed : List Char := [' ', '\t', '\n', '\r', '\x00', '\x0b']

/-- `trim`: takes characters off the ends. -/
def trim : Callable :=
  make "trim" [needed "value", optional "character_mask" .anything, optional "side" .text]
    fun _ given => do
      let chars := ((← printed? (given.value 1 .null)).map String.toList).getD trimmed
      let cs := (← Act.print (given.value 0 .null)).toList
      let side := given.text 2 "both"
      let p := fun c => chars.contains c
      if side == "left" then return .text (String.ofList (cs.dropWhile p))
      else if side == "right" then return .text (String.ofList (Text.trimEnd p cs))
      else if side == "both" then return .text (String.ofList (Text.trimBoth p cs))
      else Act.complain "Trimming side must be \"left\", \"right\" or \"both\"."

def escape : Callable :=
  make "escape" [needed "value", optional "strategy" .text] fun _ given => do
    let s ← Act.print (given.value 0 .null)
    let strategy := given.text 1 "html"
    if strategy == "html" then return .text (Text.markup s)
    else if strategy == "url" then return .text (Text.address s)
    else Act.complain s!"Invalid escaping strategy {quoted strategy} (valid ones: html, url)."

/-! ## Containers -/

def default : Callable :=
  make "default" [needed "value", optional "default" .anything] fun _ given => do
    let v := given.value 0 .null
    return if (← get).isEmpty v then given.value 1 (.text "") else v

def joined (glue : String) (final : Option String) (parts : List String) : String :=
  match final, parts.getLast? with
  | some word, some last =>
    if parts.length < 2 then String.intercalate glue parts
    else String.intercalate glue parts.dropLast ++ word ++ last
  | _, _ => String.intercalate glue parts

def join : Callable :=
  make "join" [needed "value", optional "glue" .text, optional "and" .anything] fun _ given => do
    let v := given.value 0 .null
    if !v.isContainer then return .text (← Act.print v)
    let parts ← (← Act.valuesOf v).mapM Act.print
    return .text (joined (given.text 1 "") (← printed? (given.value 2 .null)) parts)

def length : Callable := ofValue "length" fun v => do
  if v.isNull then return .int 0
  else match (← get).count? v with
    | some n => return .int n
    | none => return .int (← Act.print v).length

def keys : Callable := ofValue "keys" fun v => do
  Act.newList (((← get).pairs v).map (·.1))

def pick (name : String) (chars : List Char → Option Char) (items : List Value → Option Value) :
    Callable :=
  ofValue name fun
    | .text s => return .text (String.ofList (chars s.toList).toList)
    | v => do return (items (← Act.valuesOf v)).getD .null

/-! ## Numbers -/

def numberFor (name : String) (v : Value) : Act Number :=
  match v.toNumber? with
  | some n => return n
  | none => Act.complain s!"The {quoted name} filter expects a number, got {v.type}."

def abs : Callable := ofValue "abs" fun v => do
  match ← numberFor "abs" v with
  | .int i => return .int i.natAbs
  | .float f => return .float f.abs

def round : Callable :=
  make "round" [needed "value", optional "precision" .int, optional "method" .text]
    fun _ given => do
      let f := (← numberFor "round" (given.value 0 .null)).toFloat
      let p := Decimal.pow 10.0 (Decimal.ofInt (given.int 1 0))
      let method := given.text 2 "common"
      if method == "common" then return .float ((f * p).round / p)
      else if method == "ceil" then return .float ((f * p).ceil / p)
      else if method == "floor" then return .float ((f * p).floor / p)
      else Act.complain ("The round filter only supports the \"common\", \"ceil\", and " ++
        "\"floor\" methods.")

/-! ## Data -/

def jsonEncode : Callable := make "json_encode" [needed "value"] fun scope given => do
  match Json.encode scope.host (← Act.toPlain (given.value 0 .null)) with
  | .ok s => return .text s
  | .error f => throw (.explained "json_encode" f)

def dumped : Callable := make "dump" [needed "value"] fun scope given => do
  return .text (Dump.describe scope.host (← Act.toPlain (given.value 0 .null)))

def filters : List (String × Callable) :=
  [("upper", onText "upper" Text.upper),
   ("lower", onText "lower" Text.lower),
   ("capitalize", onText "capitalize" Text.capitalize),
   ("title", onText "title" Text.titleText),
   ("trim", trim),
   ("default", default),
   ("join", join),
   ("length", length),
   ("keys", keys),
   ("first", pick "first" List.head? List.head?),
   ("last", pick "last" List.getLast? List.getLast?),
   ("abs", abs),
   ("round", round),
   ("escape", escape),
   ("e", escape),
   ("raw", ofValue "raw" fun v => return v),
   ("json_encode", jsonEncode),
   ("dump", dumped)]

end Stencil.Language
