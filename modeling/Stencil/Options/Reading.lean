import Stencil.Check
import Stencil.Yaml.Decode

/-!
# Reading options

Options are a mapping in a YAML document.  Options that are not there keep their defaults, and a name
that is not known is refused.
-/

namespace Stencil.Options

open Yaml (Reading)
open Yaml.Reading (note following)

def typeName : String := "twig.Options"

def names : List String :=
  ["strict_variables", "strict_types", "debug", "template_dirs", "autoescape"]

def set (o : Options) (name : String) (again : Bool) (k v : Yaml.Node) : Reading Options := do
  if again && names.contains name then
    note k.line s!"field {name} already set in type {typeName}"
    return o
  match name with
  | "strict_variables" => return { o with strictVariables := (← v.readBool).getD o.strictVariables }
  | "strict_types" => return { o with strictTypes := (← v.readBool).getD o.strictTypes }
  | "debug" => return { o with debug := (← v.readBool).getD o.debug }
  | "template_dirs" => return { o with templateDirs := (← v.readTexts).getD o.templateDirs }
  | "autoescape" => return { o with autoescape := (← v.readText).getD o.autoescape }
  | _ => do
    note k.line s!"field {name} not found in type {typeName}"
    return o

def ofNode (fuel : Nat) (n : Yaml.Node) : Reading Options := following n fun n => do
  match n with
  | .scalar _ tag text => match ← Reading.scalar tag text with
    | .null => return {}
    | _ => n.mismatch typeName *> pure {}
  | .mapping _ _ entries => do
    let (_, o) ← Yaml.Node.takeMapping { key := Yaml.Node.readText, plain := .text, put := set }
      (Yaml.Node.readAny fuel) fuel entries none {}
    return o
  | _ => n.mismatch typeName *> pure {}

def parse (document : String) : Except Failure Options := do
  match Yaml.read document {} ofNode with
  | .error why => throw (.explained "failed to decode options" (.plain why.message))
  | .ok (o, _) => match Check.summary? o.complaints with
    | some text => throw (.explained "invalid options" (.plain text))
    | none => return o

end Stencil.Options
