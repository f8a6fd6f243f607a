import Stencil.Attribute
import Stencil.Environment

/-!
# Steps of a rendering

While a template is rendered, code of several templates runs: of those it includes, of those it
extends, and of blocks.  A `Frame` is one such piece of code at work: whose it is, with which
variables, and which blocks are in force.

A failure that has no place of its own gets one in two ways.  If it names the template whose code is
running, it gets the line of the statement.  If it is no failure of a template at all, it is in the
end reported in the template the rendering started with, at the line that one was at; a `Fault`
carries that line along.
-/

namespace Stencil

structure Fault where
  failure : Failure
  /-- The line the template was at that the rendering started with; zero while it is not known. -/
  line : Int

abbrev Eval (α : Type) := EStateM Fault World α

inductive Block
  | code (owner : Template) (body : Stmt)
  | foreign (type : String)

abbrev Blocks := List (String × Block)

def Template.ownBlocks (t : Template) : Blocks := t.blocks.map fun (name, body) => (name, .code t body)

def Blocks.atop (above below : Blocks) : Blocks := above ++ below

structure Frame where
  env : Environment
  /-- The program of the template the rendering started with. -/
  root : String
  template : Template
  context : Nat
  blocks : Blocks

namespace Eval

def ofAct {α : Type} (act : Act α) : Eval α := fun w =>
  match act w.store with
  | .ok a s => .ok a { w with store := s }
  | .error f s => .error ⟨f, 0⟩ { w with store := s }

def ofTask {α : Type} (task : Task α) : Eval α := fun w =>
  match task w with
  | .ok a w => .ok a w
  | .error f w => .error ⟨f, 0⟩ w

def fail {α : Type} (f : Failure) : Eval α := throw ⟨f, 0⟩

def templateOf (unit : String) : Eval Template := do
  match (← get).cache.lookup unit with
  | some t => return t
  | none => fail .nothingFound

end Eval

namespace Frame

def scope (frame : Frame) : Scope := frame.env.scope frame.template.name

def withContext (frame : Frame) (context : Nat) : Frame := { frame with context }

def placed (frame : Frame) (mark : Int) (fault : Fault) : Fault where
  failure := fault.failure.stamp frame.template.name mark
  line := if fault.line = 0 && frame.template.unit == frame.root then mark else fault.line

/-- Runs a step that belongs to a line of the template. -/
def located {α : Type} (frame : Frame) (mark : Int) (step : Eval α) : Eval α :=
  tryCatch step fun fault => throw (frame.placed mark fault)

def raise {α : Type} (frame : Frame) (line : Int) (reason : Raised) (cause : Option Failure) :
    Eval α :=
  Eval.fail (.raised reason frame.template.name line cause)

/-- Fails with a failure of something that was called: one of a template gets a place, and any other
becomes the cause of a new one. -/
def raiseFrom {α : Type} (frame : Frame) (line : Int) (reason : Raised) (f : Failure) : Eval α :=
  if f.chain.any Failure.isRaised then Eval.fail (f.locate frame.template.name line)
  else if f.chain.any Failure.isMalformed then Eval.fail f
  else frame.raise line reason (some f)

def invoke (frame : Frame) (callable : Option Callable) (sort name : String) (args : List Value)
    (named : List (String × Value)) (line : Int) : Eval Value :=
  match callable with
  | none => frame.raise line (.unknownCallable name sort) none
  | some run =>
    tryCatch (return ((← Eval.ofAct (run frame.scope args named)).getD .null)) fun fault =>
      frame.raiseFrom line (.thrownByCallable name sort) fault.failure

end Frame
end Stencil
