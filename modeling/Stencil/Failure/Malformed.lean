import Stencil.Token
import Stencil.Text.Quoted

/-!
# What can be wrong with a template source

One constructor for each way in which a source is not a template, from an unclosed comment to an
operand that cannot be tested, and one function for their wording.  `custom` is for tags that are
added to the language.
-/

namespace Stencil

open Text (quoted)

inductive Malformed
  | unclosedBlock
  | unclosedPrint
  | unclosed (opening : String)
  | unexpectedEnd
  | unclosedComment
  | unclosedVerbatim (tag : String)
  | unexpectedBracket (bracket : String)
  | unexpectedCharacter (character : String)
  | unexpected (context : String) (found : Token.Kind) (value : String) (wanted : Token.Kind)
      (wantedValue : Option String)
  | missingTagName
  | unexpectedTag (name : String)
  | unknownTag (name : String)
  | misplacedToken
  | contentOutsideBlocks
  | unsupportedOperator (name : String)
  | unexpectedToken (kind : Token.Kind) (value : String)
  | invalidNumber (text : String)
  | unclosedHash
  | hashKey (kind : Token.Kind) (value : String)
  | memberExpected
  | namedMethodArgument (method : String)
  | unknownFilter (name : String)
  | unknownFunction (name : String)
  | unknownTest (name : String)
  | parentOutsideBlock
  | parentWithoutExtends
  | blockArgument
  | assignment (name : String)
  | loopTargets
  | unclosedIf (line : Int)
  | blockRedefined (name : String) (line : Int)
  | blockMismatch (name : String) (given : String)
  | assignmentCount
  | captureTargets
  | extendsInBlock
  | extendsTwice
  | definedOperand
  | custom (text : String)
  deriving DecidableEq, Repr

def Malformed.message : Malformed → String
  | unclosedBlock => "Unclosed \"block\"."
  | unclosedPrint => "Unclosed \"variable\"."
  | unclosed opening => s!"Unclosed {quoted opening}."
  | unexpectedEnd => "Unexpected end of template."
  | unclosedComment => "Unclosed comment."
  | unclosedVerbatim tag => s!"Unexpected end of file: Unclosed {quoted tag} block."
  | unexpectedBracket bracket => s!"Unexpected {quoted bracket}."
  | unexpectedCharacter character => s!"Unexpected character {quoted character}."
  | unexpected context found value wanted wantedValue =>
    let lead := if context.isEmpty then "" else context ++ ". "
    let got := if value.isEmpty then "" else " of value " ++ quoted value
    let want := match wantedValue with
      | some v => " with value " ++ quoted v
      | none => ""
    s!"{lead}Unexpected token {quoted found.describe}{got} ({quoted wanted.describe} expected{want})."
  | missingTagName => "A block must start with a tag name."
  | unexpectedTag name => s!"Unexpected {quoted name} tag."
  | unknownTag name => s!"Unknown {quoted name} tag."
  | misplacedToken => "Lexer or parser ended up in unsupported state."
  | contentOutsideBlocks =>
    "A template that extends another one cannot include content outside Twig blocks. " ++
      "Did you forget to put the content inside a \x7b% block %\x7d tag?"
  | unsupportedOperator name => s!"Operator {quoted name} not supported."
  | unexpectedToken kind value =>
    s!"Unexpected token {quoted kind.describe} of value {quoted value}."
  | invalidNumber text => s!"Invalid number {quoted text}."
  | unclosedHash => "An opened hash is not properly closed."
  | hashKey kind value =>
    "A hash key must be a quoted string, a number, a name, or an expression enclosed in " ++
      s!"parentheses (unexpected token {quoted kind.describe} of value {quoted value}."
  | memberExpected => "Expected name or number."
  | namedMethodArgument method =>
    s!"Named arguments are not supported when calling method {quoted method}."
  | unknownFilter name => s!"Unknown {quoted name} filter."
  | unknownFunction name => s!"Unknown {quoted name} function."
  | unknownTest name => s!"Unknown {quoted name} test."
  | parentOutsideBlock => "Calling \"parent\" outside a block is forbidden."
  | parentWithoutExtends =>
    "Calling \"parent\" on a template that does not extend another template is forbidden."
  | blockArgument => "The \"block\" function takes one argument (the block name)."
  | assignment name => s!"You cannot assign a value to {quoted name}."
  | loopTargets => "A for loop takes at most two targets (key and value)."
  | unclosedIf line =>
    "Unexpected end of template. Twig was looking for the following tags \"else\", \"elseif\", " ++
      s!"or \"endif\" to close the \"if\" block started at line {line}."
  | blockRedefined name line => s!"The block {quoted name} has already been defined line {line}."
  | blockMismatch name given =>
    s!"Expected endblock for block {quoted name} (but {quoted given} given)."
  | assignmentCount =>
    "When using set, you must have the same number of variables and assignments."
  | captureTargets => "When using set with a block, you cannot have a multi-target."
  | extendsInBlock => "Cannot use \"extends\" in a block."
  | extendsTwice => "Multiple extends tags are forbidden."
  | definedOperand => "The \"defined\" test only works with simple variables."
  | custom text => text

end Stencil
