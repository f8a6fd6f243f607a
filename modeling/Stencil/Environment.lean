import Stencil.Autoescape
import Stencil.Check
import Stencil.Digest
import Stencil.Extension
import Stencil.Listing.Obstacle
import Stencil.Parse.Template
import Stencil.Program.Assemble

/-!
# Environments

An environment knows the language, with all its extensions, the options, where sources come from and
what objects there are.  It turns a source into tokens, a tree, the text of a program and a template
that can be rendered.

Templates are kept by the names of their programs, which depend on the name and the source of a
template.  A `World` holds them together with the store, and counts how often a template was there
already and how often it had to be made.
-/

namespace Stencil

/-- Where templates live and how they are made. -/
structure Environment where
  options : Options
  source : String → Except Failure String
  host : Host
  registry : Registry
  methods : Container.Methods

/-- What changes while templates are loaded and rendered. -/
structure World where
  store : Store
  /-- The templates that have been made, by the names of their programs. -/
  cache : List (String × Template)
  hits : Nat
  misses : Nat

def World.start : World := ⟨.empty, [], 0, 0⟩

abbrev Task (α : Type) := EStateM Failure World α

def Task.ofAct {α : Type} (act : Act α) : Task α := fun w =>
  match act w.store with
  | .ok a s => .ok a { w with store := s }
  | .error f s => .error f { w with store := s }

namespace Environment

/-- An environment with some extensions after the language itself. -/
def make (options : Options) (extensions : List Extension) (source : String → Except Failure String)
    (host : Host) : Except Failure Environment :=
  match Check.summary? options.complaints with
  | some text => .error (.explained "invalid options" (.plain text))
  | none =>
    let (registry, conflicts) := Registry.ofExtensions (.core :: extensions)
    match Check.summary? conflicts with
    | some text => .error (.explained "failed to register extensions" (.plain text))
    | none => .ok ⟨options, source, host, registry, Container.method?⟩

/-! ## From sources to templates -/

def tokenize (env : Environment) (source name : String) : Except Failure (Array Token) :=
  let ops := Scanner.Operators.ofNames env.registry.grammar.vocabulary.operatorNames
  match Scanner.tokenize ops source with
  | .ok tokens => .ok tokens
  | .error (reason, line) => .error (.malformed reason name line)

def parse (env : Environment) (stream : TokenStream) : Except Failure Node := do
  let module ← Parse.tree env.registry.grammar stream
  return if env.options.autoescape.isEmpty then module
    else Autoescape.apply env.options.autoescape module

def tree (env : Environment) (source name : String) : Except Failure Node := do
  env.parse (TokenStream.ofTokens (← env.tokenize source name) name)

def unitName (name source : String) : String :=
  "__TwigTemplate_" ++ ((Digest.sha256 (name ++ "\x00" ++ source)).take 32).toString

def compileSource (env : Environment) (source name : String) : Except Failure String := do
  Listing.compile (← env.tree source name) fun _ => unitName name source

def unusable (unit : String) (o : Listing.Obstacle) : Failure :=
  .unbuildable .instantiation unit (some (.plain s!"{unit}:{o.line}:{o.column}: {o.what}"))

def build (env : Environment) (source name : String) : Except Failure Template := do
  let unit := unitName name source
  let module ← env.tree source name
  let text ← Listing.compile module fun _ => unit
  match Listing.obstacle? unit text with
  | some o => throw (unusable unit o)
  | none => match Program.assemble module unit with
    | some t => return t
    | none => throw (.unbuildable .instantiation unit none)

/-! ## Loading -/

/-- The template of a name and source, made if it is not there yet. -/
def load (env : Environment) (name source : String) : Task Template := do
  let w ← get
  match w.cache.lookup (unitName name source) with
  | some t => do
    set { w with hits := w.hits + 1 }
    return t
  | none => do
    set { w with misses := w.misses + 1 }
    match env.build source name with
    | .error f => throw f
    | .ok t => do
      modify fun w => { w with cache := (t.unit, t) :: w.cache }
      return t

def loadTemplate (env : Environment) (name : String) : Task Template :=
  match env.source name with
  | .ok source => env.load name source
  | .error f => throw f

def stringTemplateName (source : String) : String :=
  "__string_template__" ++ Digest.sha256 source

def createTemplate (env : Environment) (source : String) : Task Template :=
  env.load (stringTemplateName source) source

def scope (env : Environment) (template : String) : Scope :=
  ⟨template, env.options, env.host, env.methods⟩

end Environment
end Stencil
