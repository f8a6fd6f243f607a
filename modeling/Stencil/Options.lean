/-!
# Options

What a user can choose about the templates of an environment.
-/

namespace Stencil

structure Options where
  /-- Whether a variable or attribute that does not exist is an error. -/
  strictVariables : Bool := false
  /-- Whether comparing or calculating with values of the wrong types is an error. -/
  strictTypes : Bool := false
  /-- Whether the `dump` function shows anything. -/
  debug : Bool := false
  /-- The directories in which templates are looked for, in order. -/
  templateDirs : List String := []
  /-- How everything that is printed is escaped; nothing is when it is empty. -/
  autoescape : String := ""
  deriving DecidableEq, Repr

end Stencil
