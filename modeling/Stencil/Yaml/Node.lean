import Stencil.Yaml.Scalar
import Stencil.Yaml.Scanner

/-!
# The data of a YAML document

A document is a scalar, a sequence or a mapping.  Every node knows the line on which it starts and
its tag.  A node with a name can be used again where only its name is written; a name stands for the
last node that was given it, and within that node for the node itself.

`Yaml.parse` puts the tokens of the first document together.  It looks at two tokens after the one
it needs, and, to know whether that one starts a key, as far as a key can reach; so a document that
becomes unreadable there is refused for that.
-/

namespace Stencil.Yaml

inductive Node
  | scalar (line : Nat) (tag text : String)
  | sequence (line : Nat) (tag : String) (items : List Node)
  | mapping (line : Nat) (tag : String) (entries : List (Node × Node))
  | again (line : Nat) (name : String) (target : Node)
  | loop (line : Nat) (name : String) (mapping : Bool)
  deriving Inhabited

namespace Node

def line : Node → Nat
  | scalar n _ _ => n
  | sequence n _ _ => n
  | mapping n _ _ => n
  | again n _ _ => n
  | loop n _ _ => n

def commonTags : String := "tag:yaml.org,2002:"

def shortTag (tag : String) : String :=
  let lead := commonTags.toList
  if lead.isPrefixOf tag.toList then "!!" ++ String.ofList (tag.toList.drop lead.length) else tag

/-- The tag of a node: what is written, or else what it is.  The tag `!` says nothing. -/
def tagOr (written : Option String) (otherwise : String) : String :=
  match written with
  | none | some "!" => otherwise
  | some t => shortTag t

def ofText (line : Nat) (written : Option String) (text : String) (quoted : Bool) : Node :=
  let found := if quoted then "!!str" else if text = "<<" then "!!merge" else (Scalar.ofPlain text).tag
  .scalar line (tagOr written found) text

def absent (m : Mark) : Node := .scalar (m.line + 1) "!!null" ""

end Node

inductive Named
  | whole (n : Node)
  | begun (mapping : Bool)

structure Supply where
  rest : List Token
  position : Nat
  trouble : Option Trouble
  names : List (String × Named) := []
  handles : List (String × String) := []

abbrev Parsing (α : Type) := StateT Supply (Except Complaint) α

namespace Parsing

/-! ## Tokens -/

def obstacle? (s : Supply) : Option Complaint := do
  let t ← s.trouble
  if s.rest.length < 3 then some t.complaint else t.undecided.lookup s.position

def peek : Parsing Token := do
  let s ← get
  match obstacle? s with
  | some why => throw why
  | none => return s.rest.headD ⟨.streamEnd, ⟨0, 0, 0⟩⟩

def skip : Parsing Unit :=
  modify fun s => { s with rest := s.rest.drop 1, position := s.position + 1 }

def refuse {α : Type} (thing : Mark) (text : String) : Parsing α := do
  throw (.ofTokens thing (← peek).mark text)

/-! ## Names and tags -/

structure Properties where
  name : Option String := none
  /-- The handle and the suffix of its tag, and where it stands. -/
  tag : Option (String × String × Mark) := none

def name? : Parsing (Option String) := do
  match (← peek).kind with
  | .anchor name => do
    skip
    return some name
  | _ => return none

def tag? : Parsing (Option (String × String × Mark)) := do
  let t ← peek
  match t.kind with
  | .tag handle suffix => do
    skip
    return some (handle, suffix, t.mark)
  | _ => return none

def properties : Parsing Properties := do
  match ← name? with
  | some name => return ⟨some name, ← tag?⟩
  | none => match ← tag? with
    | some tag => return ⟨← name?, some tag⟩
    | none => return {}

def Properties.fullTag (p : Properties) (start : Mark) : Parsing (Option String) := do
  match p.tag with
  | none => return none
  | some ("", suffix, _) => return some suffix
  | some (handle, suffix, place) => match (← get).handles.lookup handle with
    | some lead => return some (lead ++ suffix)
    | none => throw (.ofTokens start place "found undefined tag handle")

def give (name : Option String) (n : Named) : Parsing Unit :=
  match name with
  | none => return
  | some a => modify fun s => { s with names := (a, n) :: s.names }

/-- Reads a sequence or a mapping to which a name is given.  If the name is given to another node
within it, that is what the name stands for afterwards. -/
def named (name : Option String) (mapping : Bool) (body : Parsing Node) : Parsing Node := do
  give name (.begun mapping)
  let n ← body
  let names := (← get).names
  match name.bind fun a => names.lookup a with
  | some (.begun _) => give name (.whole n)
  | _ => pure ()
  return n

def nodeOf (line : Nat) (name : String) : Parsing Node := do
  match (← get).names.lookup name with
  | some (.whole n) => return .again line name n
  | some (.begun mapping) => return .loop line name mapping
  | none => throw ⟨0, s!"unknown anchor '{name}' referenced"⟩

/-! ## Nodes -/

/-- Whether a token says something about a document before it. -/
def isDirective : Token.Kind → Bool
  | .version .. => true
  | .handle .. => true
  | _ => false

mutual

/-- A node.  It may be a block only where blocks are allowed, and a sequence without indentation of
its own only in a mapping.  A node of which only properties are written is an empty scalar. -/
def node : Nat → Bool → Bool → Parsing Node
  | 0, _, _ => refuse ⟨0, 0, 0⟩ "did not find expected node content"
  | fuel + 1, block, loose => do
    let first ← peek
    let line := first.mark.line + 1
    if let .reference name := first.kind then
      skip
      return ← nodeOf line name
    let p ← properties
    let t ← peek
    let tag ← p.fullTag first.mark
    let sequence (items : Parsing (List Node)) : Parsing Node :=
      named p.name false do return .sequence line (Node.tagOr tag "!!seq") (← items)
    let mapping (entries : Parsing (List (Node × Node))) : Parsing Node :=
      named p.name true do return .mapping line (Node.tagOr tag "!!map") (← entries)
    match t.kind, block, loose with
    | .blockItem, _, true => sequence (looseItems fuel)
    | .scalar text quoted, _, _ => do
      skip
      let n := Node.ofText line tag text quoted
      give p.name (.whole n)
      return n
    | .flowSequence, _, _ => skip *> sequence (flowItems fuel t.mark true)
    | .flowMapping, _, _ => skip *> mapping (flowEntries fuel t.mark true)
    | .blockSequence, true, _ => skip *> sequence (blockItems fuel t.mark)
    | .blockMapping, true, _ => skip *> mapping (blockEntries fuel t.mark)
    | _, _, _ =>
      if p.name.isNone && p.tag.isNone then
        refuse first.mark "did not find expected node content"
      else do
        let n := Node.ofText line tag "" false
        give p.name (.whole n)
        return n

/-- A node, or a scalar that is not there if one of some tokens follows. -/
def nodeUnless : Nat → List Token.Kind → Bool → Bool → Mark → Parsing Node
  | 0, _, _, _, m => return .absent m
  | fuel + 1, stops, block, loose, m => do
    if stops.contains (← peek).kind then return .absent m else node fuel block loose

def blockItems : Nat → Mark → Parsing (List Node)
  | 0, _ => return []
  | fuel + 1, start => do
    let t ← peek
    match t.kind with
    | .blockItem => do
      skip
      let item ← nodeUnless fuel [.blockItem, .blockEnd] true false t.mark
      return item :: (← blockItems fuel start)
    | .blockEnd => do
      skip
      return []
    | _ => refuse start "did not find expected '-' indicator"

def looseItems : Nat → Parsing (List Node)
  | 0 => return []
  | fuel + 1 => do
    let t ← peek
    match t.kind with
    | .blockItem => do
      skip
      let item ← nodeUnless fuel [.blockItem, .key, .value, .blockEnd] true false t.mark
      return item :: (← looseItems fuel)
    | _ => return []

def blockEntries : Nat → Mark → Parsing (List (Node × Node))
  | 0, _ => return []
  | fuel + 1, start => do
    let t ← peek
    match t.kind with
    | .key => do
      skip
      let key ← nodeUnless fuel [.key, .value, .blockEnd] true true t.mark
      let u ← peek
      if u.kind = .value then do
        skip
        let value ← nodeUnless fuel [.key, .value, .blockEnd] true true u.mark
        return (key, value) :: (← blockEntries fuel start)
      else return (key, .absent u.mark) :: (← blockEntries fuel start)
    | .blockEnd => do
      skip
      return []
    | _ => refuse start "did not find expected key"

/-- The items between brackets.  A key between them starts a mapping of one entry.  Where nothing
stands after its question mark, the token that follows is taken for it. -/
def flowItems : Nat → Mark → Bool → Parsing (List Node)
  | 0, _, _ => return []
  | fuel + 1, start, first => do
    if (← peek).kind = .flowSequenceEnd then do
      skip
      return []
    if !first then
      if (← peek).kind = .flowItem then skip
      else refuse start "did not find expected ',' or ']'"
    let t ← peek
    match t.kind with
    | .flowSequenceEnd => do
      skip
      return []
    | .key => do
      skip
      let k ← peek
      let key ← if [.value, .flowItem, .flowSequenceEnd].contains k.kind then do
          skip
          pure (.absent k.mark)
        else node fuel false false
      let u ← peek
      let value ← if u.kind = .value then do
          skip
          nodeUnless fuel [.flowItem, .flowSequenceEnd] false false u.mark
        else pure (.absent u.mark)
      return .mapping (t.mark.line + 1) "!!map" [(key, value)] :: (← flowItems fuel start false)
    | _ => do
      let item ← node fuel false false
      return item :: (← flowItems fuel start false)

def flowEntries : Nat → Mark → Bool → Parsing (List (Node × Node))
  | 0, _, _ => return []
  | fuel + 1, start, first => do
    if (← peek).kind = .flowMappingEnd then do
      skip
      return []
    if !first then
      if (← peek).kind = .flowItem then skip
      else refuse start "did not find expected ',' or '\x7d'"
    let t ← peek
    match t.kind with
    | .flowMappingEnd => do
      skip
      return []
    | .key => do
      skip
      let key ← nodeUnless fuel [.value, .flowItem, .flowMappingEnd] false false (← peek).mark
      let u ← peek
      let value ← if u.kind = .value then do
          skip
          nodeUnless fuel [.flowItem, .flowMappingEnd] false false (← peek).mark
        else pure (.absent u.mark)
      return (key, value) :: (← flowEntries fuel start false)
    | _ => do
      let key ← node fuel false false
      return (key, .absent (← peek).mark) :: (← flowEntries fuel start false)

end

/-! ## Documents -/

def commonHandles : List (String × String) := [("!", "!"), ("!!", Node.commonTags)]

def directives : Nat → Bool → Parsing Unit
  | 0, _ => return
  | fuel + 1, versioned => do
    let t ← peek
    match t.kind with
    | .version major minor => do
      if versioned then refuse ⟨0, 0, 0⟩ "found duplicate %YAML directive"
      if major ≠ 1 || minor ≠ 1 then refuse ⟨0, 0, 0⟩ "found incompatible YAML document"
      skip
      directives fuel true
    | .handle name lead => do
      if ((← get).handles.lookup name).isSome then
        refuse ⟨0, 0, 0⟩ "found duplicate %TAG directive"
      modify fun s => { s with handles := s.handles ++ [(name, lead)] }
      skip
      directives fuel versioned
    | _ => modify fun s => { s with handles := s.handles ++ commonHandles }

/-- The first document, if there is one.  What follows it is only looked at. -/
def document (fuel : Nat) : Parsing (Option Node) := do
  let t ← peek
  if t.kind = .streamEnd then return none
  directives fuel false
  let root ← if t.kind = .documentStart || isDirective t.kind then do
      let u ← peek
      if u.kind ≠ .documentStart then
        refuse ⟨0, 0, 0⟩ "did not find expected <document start>"
      skip
      let v ← peek
      if isDirective v.kind || [.documentStart, .documentEnd, .streamEnd].contains v.kind then
        pure (.absent v.mark)
      else node fuel true false
    else node fuel true false
  discard peek
  return some root

end Parsing

def parse (text : String) : Except Complaint (Option Node) :=
  let ts := tokens text
  (·.1) <$> (Parsing.document (3 * ts.read.size + 8)).run
    { rest := ts.read.toList, position := 0, trouble := ts.trouble }

end Stencil.Yaml
