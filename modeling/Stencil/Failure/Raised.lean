import Stencil.Text.Quoted

/-!
# What can go wrong while a template is rendered

One constructor for each reason for which a template that was accepted cannot be rendered, and one
function for their wording.  `custom` is for callables that are added to the language, and `stated`
for a complaint of the evaluator itself, which is repeated as it stands.
-/

namespace Stencil

open Text (quoted)

inductive Raised
  | missingVariable (name : String)
  | missingKeyOfEmpty (key : String)
  | missingKey (key : String) (keys : String)
  | keyOfNull (key : String)
  | keyOf (key : String) (type : String)
  | methodOf (method : String) (type : String)
  | attributeOf (item : String) (type : String)
  | missingMember (member : String) (type : String)
  | thrownByMethod (method : String) (type : String)
  | thrownByCallable (name : String) (sort : String)
  | thrown
  | unknownCallable (name : String) (sort : String)
  | zeroStep
  | typeMismatch (left right : String)
  | incomparable (type : String)
  | unordered (type : String)
  | orderFailed (type : String)
  | operands (left right operator : String)
  | divisionByZero
  | parentNotLoaded (name : String)
  | parentType (type : String)
  | blockNotInParent (block : String)
  | missingBlock (block : String) (template : String)
  | noParentBlock (block : String)
  | noParent (template : String)
  | noneOf (names : String)
  | notLoaded (name : String)
  | includeVariables (type : String)
  | noSavedScope
  | stated (text : String)
  | custom (text : String)
  deriving DecidableEq, Repr

def Raised.message : Raised → String
  | missingVariable name => s!"Variable {quoted name} does not exist."
  | missingKeyOfEmpty key => s!"Key {quoted key} does not exist as the array is empty."
  | missingKey key keys => s!"Key {quoted key} for array with keys {quoted keys} does not exist."
  | keyOfNull key => s!"Impossible to access a key ({quoted key}) on a null variable."
  | keyOf key type => s!"Impossible to access a key ({quoted key}) on a {type} variable."
  | methodOf method type =>
    s!"Impossible to invoke a method ({quoted method}) on a {type} variable."
  | attributeOf item type =>
    s!"Impossible to access an attribute ({quoted item}) on a {type} variable."
  | missingMember member type => s!"No such method {quoted member} on object of type {quoted type}."
  | thrownByMethod method type =>
    "An exception has been thrown during the rendering of a template " ++
      s!"({quoted method} on {quoted type})"
  | thrownByCallable name sort =>
    s!"An exception has been thrown during the rendering of a template ({quoted name} {sort})"
  | thrown => "An exception has been thrown during the rendering of a template"
  | unknownCallable name sort => s!"Unknown {quoted name} {sort}."
  | zeroStep => "The step of a range cannot be zero."
  | typeMismatch left right =>
    s!"Cannot compare different types (tried to compare {quoted left} with {quoted right})."
  | incomparable type => s!"Cannot compare {quoted type} values"
  | unordered type => s!"Values of type {quoted type} cannot be ordered."
  | orderFailed type => s!"Cannot order {quoted type} values"
  | operands left right operator =>
    s!"Unsupported operand types {quoted left} and {quoted right} for {quoted operator}."
  | divisionByZero => "Division by zero."
  | parentNotLoaded name => s!"Unable to load the parent template {quoted name}"
  | parentType type => s!"A template can only extend a template name, got {type}."
  | blockNotInParent block =>
    s!"Block {quoted block} should not call parent() as the block does not exist in the " ++
      "parent template."
  | missingBlock block template =>
    s!"Block {quoted block} on template {quoted template} does not exist."
  | noParentBlock block =>
    s!"The template has no parent and no traits defining the {quoted block} block."
  | noParent template => s!"Template {quoted template} has no parent."
  | noneOf names => s!"Unable to find one of the following templates: {quoted names}"
  | notLoaded name => s!"Unable to load template {quoted name}"
  | includeVariables type =>
    s!"Variables passed to the \"include\" tag must be a mapping, got {type}."
  | noSavedScope => "Loop scope has no saved parent context."
  | stated text => text
  | custom text => text

end Stencil
