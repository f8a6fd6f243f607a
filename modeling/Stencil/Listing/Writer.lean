import Stencil.Failure
import Stencil.Node

/-!
# Writing a program listing

A writer collects the text of a program and knows how deep it is indented.  Its first failure
sticks: nothing is written afterwards, though the depth still follows the calls.

* `start` begins a statement: it writes the indentation and then the given pieces.  `line` is a
  whole line, `raw` goes on where the text ended.
* `string` and `literal` write constants.
* `mark` writes a comment with a template line, when it differs from the last one written.
* `suite` writes a body one level deeper, with `pass` for a body without statements.

An `Emit` is anything that changes a writer; `all` runs several in turn.
-/

namespace Stencil

open Text (quoted)

structure Writer where
  text : String
  depth : Nat
  statements : Nat
  locals : Nat
  lastLine : Int
  template : String
  failure : Option Failure

abbrev Emit := Writer → Writer

namespace Writer

def empty (template : String) : Writer := ⟨"", 0, 0, 0, 0, template, none⟩

def indentation (depth : Nat) : String := String.ofList (List.replicate (4 * depth) ' ')

def fail (f : Failure) : Emit := fun w =>
  match w.failure with
  | some _ => w
  | none => { w with failure := some f }

def raw (s : String) : Emit := fun w =>
  match w.failure with
  | some _ => w
  | none => { w with text := w.text ++ s }

def start (pieces : List String) : Emit := fun w =>
  match w.failure with
  | some _ => w
  | none =>
    { w with
      statements := w.statements + 1
      text := w.text ++ indentation w.depth ++ String.join pieces }

def line (s : String) : Emit := start [s, "\n"]

def indent : Emit := fun w => { w with depth := w.depth + 1 }

def outdent : Emit := fun w =>
  if w.depth = 0 then
    fail (.plain "unable to outdent: the indentation would become negative") w
  else { w with depth := w.depth - 1 }

def string (s : String) : Emit := raw (quoted s)

def floatLiteral (f : Float) : String :=
  let s := Decimal.general f
  if s.toList.any (fun c => c == '.' || c == 'e') then s else s ++ ".0"

def literal : Attr → Emit
  | .null => raw "None"
  | .bool b => raw (if b then "True" else "False")
  | .int i => raw (toString i)
  | .float f => raw (floatLiteral f)
  | .text s => string s
  | .foreign typeName => fail (.plain ("cannot represent constant of type " ++ typeName))

def mark (line : Int) : Emit := fun w =>
  match w.failure with
  | some _ => w
  | none =>
    if line = w.lastLine then w
    else { w with lastLine := line, text := w.text ++ indentation w.depth ++ s!"# line {line}\n" }

def fresh (stem : String) (w : Writer) : String × Writer :=
  (s!"_{stem}_{w.locals + 1}", { w with locals := w.locals + 1 })

def suite (body : Emit) : Emit := fun w =>
  let before := w.statements
  let w := body (indent w)
  outdent (if w.statements = before then line "pass" w else w)

def all (es : List Emit) : Emit := fun w => es.foldl (fun w e => e w) w

@[simp] theorem all_nil (w : Writer) : all [] w = w := rfl

@[simp] theorem all_cons (e : Emit) (es : List Emit) (w : Writer) :
    all (e :: es) w = all es (e w) := rfl

end Writer
end Stencil
