import Stencil.Options

/-!
# Checks

A check has complaints or none.  Several checks are put together by putting their complaints
together; `summary?` words them.
-/

namespace Stencil

namespace Check

def notEmpty (field description : String) : Option String :=
  if field.isEmpty then some (description ++ " must not be empty") else none

def firstRepeated? (seen : List String) : List String → Option String
  | [] => none
  | x :: xs => if seen.contains x then some x else firstRepeated? (x :: seen) xs

def noDuplicates (items : List String) (description : String) : Option String :=
  (firstRepeated? [] items).map fun x => description ++ " contains duplicate value: " ++ x

def matchesAllowed (field : String) (allowed : List String) (description : String) :
    Option String :=
  if allowed.contains field then none
  else
    some (description ++ " must be one of [" ++ String.intercalate " " allowed ++ "], got " ++ field)

def eachFrom (check : String → String → Option String) (description : String) (i : Nat) :
    List String → List String
  | [] => []
  | x :: xs =>
    (check x s!"{description}[{i}]").toList ++ eachFrom check description (i + 1) xs

def each (check : String → String → Option String) (items : List String) (description : String) :
    List String :=
  eachFrom check description 0 items

def summary? (complaints : List String) : Option String :=
  match complaints with
  | [] => none
  | [c] => some ("1 error occurred:\n\t* " ++ c ++ "\n\n")
  | cs =>
    let points := String.intercalate "\n\t" (cs.map ("* " ++ ·))
    some (s!"{cs.length} errors occurred:\n\t" ++ points ++ "\n\n")

end Check

namespace Options

def strategies : List String := ["", "html", "url"]

def complaints (o : Options) : List String :=
  Check.each Check.notEmpty o.templateDirs "template_dirs" ++
    (Check.noDuplicates o.templateDirs "template_dirs").toList ++
    (Check.matchesAllowed o.autoescape strategies "autoescape").toList

end Options
end Stencil
