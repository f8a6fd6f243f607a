import Stencil.Proofs.Lexicon
import Stencil.Proofs.Nesting

/-!
# How templates are spelled

A template is written as a list of segments: texts, comments, prints and blocks. A print or a block
holds a phrase, which is a list of tokens in which brackets and interpolations are closed in the
order in which they are opened; `Phrase` is built that way. `write` spells a list of segments, the
tokens between delimiters with single spaces between them, and `contents` says which
tokens it stands for.

Not every list of segments is read back as it was meant. `Word.joins` are the pairs of words that,
side by side, look like one operator, and a block with nothing but the name `verbatim` or `raw` in it
opens a section that is not read at all. `WellSpelled` leaves these out.
-/

namespace Stencil

/-- What a token says, apart from the line on which it stands. -/
def Token.content (t : Token) : Token.Kind × String := (t.kind, t.value)

namespace Source

open Scanner (isName isDigit isSpace)

/-! ## Words -/

abbrev Identifier := { s : String // isName s = true ∧ s ∉ Language.scanned }

structure Numeral where
  whole : List Char
  /-- The digits behind the point; none when there is no point. -/
  fraction : List Char
  some : whole ≠ []
  digits : ∀ c ∈ whole ++ fraction, isDigit c = true

/-- An operator of the language, the sign of assignment among them. -/
abbrev Operator := { s : String // s ∈ Language.scanned }

abbrev Mark := { c : Char // c ∈ ['?', ':', '.', ',', '|'] }

/-- A text without line breaks of two characters. -/
abbrev Literal := { s : String // ¬ ['\r', '\n'] <:+: s.toList }

/-- A token that is written without brackets and interpolations. -/
inductive Word
  | name (value : Identifier)
  | number (value : Numeral)
  | operator (value : Operator)
  | mark (value : Mark)
  | single (value : Literal)
  | double (value : Literal)

def escape (special : List Char) (cs : List Char) : List Char :=
  cs.flatMap fun c => if c ∈ special then ['\\', c] else [c]

/-- What stands between double quotation marks. -/
def Literal.write (s : Literal) : List Char := escape ['\\', '"', '#'] s.1.toList

def Numeral.write (n : Numeral) : List Char :=
  n.whole ++ if n.fraction.isEmpty then [] else '.' :: n.fraction

namespace Word

def write : Word → List Char
  | name value => value.1.toList
  | number value => value.write
  | operator value => value.1.toList
  | mark value => [value.1]
  | single value => '\'' :: escape ['\\', '\''] value.1.toList ++ ['\'']
  | double value => '"' :: value.write ++ ['"']

def content : Word → Token.Kind × String
  | name value => (.name, value.1)
  | number value => (.number, String.ofList value.write)
  | operator value => (.operator, value.1)
  | mark value => (.punctuation, String.singleton value.1)
  | single value => (.string, value.1)
  | double value => (.string, value.1)

/-- Whether a word and the beginning of the next one are the words of an operator. -/
def joins (first second : Word) : Bool :=
  Language.scanned.any fun op => Text.words op == [first.write, second.write.takeWhile (· ≠ ' ')]

end Word

/-! ## Phrases -/

inductive Pair
  | round
  | square
  | curly
  deriving DecidableEq

def Pair.opening : Pair → Char
  | round => '('
  | square => '['
  | curly => '{'

def Pair.closing : Pair → Char
  | round => ')'
  | square => ']'
  | curly => '}'

mutual

/-- What a print, a block or an interpolation holds. -/
inductive Phrase
  | nil
  | word (word : Word) (rest : Phrase)
  | group (pair : Pair) (inner rest : Phrase)
  /-- A string with interpolations: a literal part, the first interpolation and the rest. -/
  | string (part : Literal) (inner : Phrase) (tail : Tail) (rest : Phrase)

inductive Tail
  | done (part : Literal)
  | more (part : Literal) (inner : Phrase) (tail : Tail)

end

mutual

/-- The tokens of a phrase, each with a space behind it. -/
def Phrase.write : Phrase → List Char
  | .nil => []
  | .word w rest => w.write ++ ' ' :: rest.write
  | .group pair inner rest =>
    pair.opening :: ' ' :: (inner.write ++ pair.closing :: ' ' :: rest.write)
  | .string part inner tail rest =>
    '"' :: (part.write ++ '#' :: '{' :: ' ' :: (inner.write ++ '}' ::
      (tail.write ++ ' ' :: rest.write)))

def Tail.write : Tail → List Char
  | .done part => part.write ++ ['"']
  | .more part inner tail =>
    part.write ++ '#' :: '{' :: ' ' :: (inner.write ++ '}' :: tail.write)

end

def unlessEmpty (kind : Token.Kind) (cs : List Char) : List (Token.Kind × String) :=
  if cs.isEmpty then [] else [(kind, String.ofList cs)]

mutual

/-- The tokens a phrase stands for; an empty part of a string is none. -/
def Phrase.contents : Phrase → List (Token.Kind × String)
  | .nil => []
  | .word w rest => w.content :: rest.contents
  | .group pair inner rest =>
    (.punctuation, String.singleton pair.opening) :: (inner.contents ++
      (.punctuation, String.singleton pair.closing) :: rest.contents)
  | .string part inner tail rest =>
    unlessEmpty .string part.1.toList ++ (.interpolationStart, "") :: (inner.contents ++
      (.interpolationEnd, "") :: (tail.contents ++ rest.contents))

def Tail.contents : Tail → List (Token.Kind × String)
  | .done part => unlessEmpty .string part.1.toList
  | .more part inner tail =>
    unlessEmpty .string part.1.toList ++ (.interpolationStart, "") :: (inner.contents ++
      (.interpolationEnd, "") :: tail.contents)

end

def Phrase.first? : Phrase → Option Word
  | .word w _ => some w
  | _ => none

mutual

/-- No two words side by side look like one operator. -/
def Phrase.isApart : Phrase → Bool
  | .nil => true
  | .word w rest => !rest.first?.any w.joins && rest.isApart
  | .group _ inner rest => inner.isApart && rest.isApart
  | .string _ inner tail rest => inner.isApart && tail.isApart && rest.isApart

def Tail.isApart : Tail → Bool
  | .done _ => true
  | .more _ inner tail => inner.isApart && tail.isApart

end

/-- The names that, alone in a block, open a section that is not read. -/
def Phrase.opensVerbatim : Phrase → Bool
  | .word (.name value) .nil => value.1 == "verbatim" || value.1 == "raw"
  | _ => false

/-! ## Segments -/

/-- A part of a template. The flags say whether the two delimiters have a dash. -/
inductive Segment
  | text (value : { s : String // '{' ∉ s.toList ∧ ¬ ['\r', '\n'] <:+: s.toList })
  | comment (opened closed : Bool) (value : { s : String // ¬ ['#', '}'] <:+: s.toList })
  | print (opened closed : Bool) (phrase : Phrase)
  | block (opened closed : Bool) (phrase : Phrase)

def dash (dashed : Bool) : List Char := if dashed then ['-'] else []

inductive Lead
  | keep
  | newline
  | space

def Lead.trim : Lead → List Char → List Char
  | newline, '\n' :: rest => rest
  | space, cs => cs.dropWhile isSpace
  | _, cs => cs

namespace Segment

def write : Segment → List Char
  | text value => value.1.toList
  | comment opened closed value =>
    '{' :: '#' :: (dash opened ++ ' ' :: (value.1.toList ++ ' ' :: (dash closed ++ ['#', '}'])))
  | print opened closed phrase =>
    '{' :: '{' :: (dash opened ++ ' ' :: (phrase.write ++ (dash closed ++ ['}', '}'])))
  | block opened closed phrase =>
    '{' :: '%' :: (dash opened ++ ' ' :: (phrase.write ++ (dash closed ++ ['%', '}'])))

def contents : Segment → List (Token.Kind × String)
  | text _ | comment _ _ _ => []
  | print _ _ phrase => (.printStart, "") :: (phrase.contents ++ [(.printEnd, "")])
  | block _ _ phrase => (.blockStart, "") :: (phrase.contents ++ [(.blockEnd, "")])

def isText : Segment → Bool
  | text _ => true
  | _ => false

def trims : Segment → Bool
  | text _ => false
  | comment opened _ _ | print opened _ _ | block opened _ _ => opened

def lead : Segment → Lead
  | text _ => .keep
  | comment _ closed _ | block _ closed _ => if closed then .space else .newline
  | print _ closed _ => if closed then .space else .keep

def isClear : Segment → Bool
  | text _ | comment _ _ _ => true
  | print _ _ phrase => phrase.isApart
  | block _ _ phrase => phrase.isApart && !phrase.opensVerbatim

end Segment

def write (segments : List Segment) : String := String.ofList (segments.flatMap Segment.write)

def shown (lead : Lead) (next : Option Segment) (cs : List Char) : List Char :=
  if next.any (·.trims) then Text.trimEnd isSpace (lead.trim cs) else lead.trim cs

/-- The tokens a list of segments stands for, when a first text in it is cut in the given way. -/
def contents : Lead → List Segment → List (Token.Kind × String)
  | _, [] => [(.endOfTemplate, "")]
  | lead, .text value :: rest =>
    unlessEmpty .text (shown lead rest.head? value.1.toList) ++ contents .keep rest
  | _, segment :: rest => segment.contents ++ contents segment.lead rest

/-- Segments that can be read back, no two texts side by side. -/
def WellSpelled (segments : List Segment) : Prop :=
  (∀ segment ∈ segments, segment.isClear = true) ∧
    segments.IsChain fun a b => (a.isText && b.isText) = false

end Source
end Stencil
