import Stencil.Proofs.Lexicon
import Stencil.Proofs.Outline

/-!
# Statements are read where statements start

The scanner gives statements and an end token (`Token.WellFormed`). Reading them, the parser stands
in one of two places: before a statement or the end, where what is ahead is again well formed, or
inside a print or a block, where tokens of an expression, the closing delimiter and a well-formed
rest are ahead (`Token.Within`).

That fits to where the parse stands, whatever it does (`Outline.ahead`), so whenever it looks for a
statement it finds text, an opening delimiter or the end (`Environment.parse_placed`).
-/

namespace Stencil

open List TokenStream
open Token (Kind.isInner Statements WellFormed)

/-! ## Places -/

namespace Token

/-- Inside a print or a block that a token of the given kind ends. -/
def Within (k : Kind) (ts : List Token) : Prop :=
  ∃ inner c after, ts = inner ++ c :: after ∧ (∀ t ∈ inner, t.kind.isInner = true) ∧ c.kind = k ∧
    WellFormed after

theorem Within.cases_head {k : Kind} {t : Token} {ts : List Token} (h : Within k (t :: ts)) :
    t.kind.isInner = true ∧ Within k ts ∨ t.kind = k ∧ WellFormed ts := by
  obtain ⟨inner, c, after, same, hinner, hc, hafter⟩ := h
  cases inner with
  | nil =>
    obtain ⟨rfl, rfl⟩ := List.cons.inj same
    exact .inr ⟨hc, hafter⟩
  | cons u inner =>
    obtain ⟨rfl, rfl⟩ := List.cons.inj same
    refine .inl ⟨hinner _ mem_cons_self, inner, c, after, rfl, fun v hv => ?_, hc, hafter⟩
    exact hinner v (mem_cons_of_mem _ hv)

theorem WellFormed.cases_head {t : Token} {ts : List Token} (h : WellFormed (t :: ts)) :
    t.kind = .endOfTemplate ∨ t.kind = .text ∧ WellFormed ts ∨
      t.kind = .printStart ∧ Within .printEnd ts ∨ t.kind = .blockStart ∧ Within .blockEnd ts := by
  obtain ⟨statements, final, same, hstatements, hfinal⟩ := h
  cases hstatements with
  | nil =>
    obtain ⟨rfl, -⟩ := List.cons.inj same
    exact .inl hfinal
  | @text u us kind _ rest =>
    obtain ⟨rfl, rfl⟩ := List.cons.inj same
    exact .inr (.inl ⟨kind, us, final, rfl, rest, hfinal⟩)
  | @enclosed o c inner us delimiters inside rest =>
    obtain ⟨rfl, rfl⟩ := List.cons.inj same
    have within : Within c.kind (inner ++ c :: us ++ [final]) :=
      ⟨inner, c, us ++ [final], by simp, inside.isInner, rfl, us, final, rfl, rest, hfinal⟩
    rcases Kind.closer?_eq_some delimiters with ⟨ho, hc⟩ | ⟨ho, hc⟩
    · exact .inr (.inr (.inl ⟨ho, hc ▸ within⟩))
    · exact .inr (.inr (.inr ⟨ho, hc ▸ within⟩))

end Token

/-! ## Parses -/

namespace Outline

open Token (Within)

variable {v : Vocabulary} {tokens : List Token} {s : ParseState}

def Ahead (s : ParseState) : Spot → Prop
  | .outside => WellFormed s.stream.ahead
  | .start => Within .blockEnd s.stream.ahead
  | .inside closer => closer.isInner = false ∧ Within closer s.stream.ahead

theorem within_pass {closer : Token.Kind} (h : Within closer s.stream.ahead)
    (inner : s.stream.current.kind.isInner = true) (outer : closer.isInner = false) :
    Within closer s.pass.stream.ahead := by
  rw [ahead_advance (Token.ne_end_of_isInner inner)] at h
  rcases h.cases_head with ⟨-, rest⟩ | ⟨is, -⟩
  · exact rest
  · rw [is, outer] at inner
    cases inner

theorem wellFormed_pass {closer : Token.Kind} (h : Within closer s.stream.ahead)
    (is : s.stream.current.kind = closer) (outer : closer.isInner = false)
    (notEnd : closer ≠ .endOfTemplate) : WellFormed s.pass.stream.ahead := by
  rw [ahead_advance (is ▸ notEnd)] at h
  rcases h.cases_head with ⟨inner, -⟩ | ⟨-, rest⟩
  · rw [is, outer] at inner
    cases inner
  · exact rest

theorem wellFormed_cases (h : WellFormed s.stream.ahead) :
    s.stream.current.kind = .endOfTemplate ∨
      s.stream.current.kind = .text ∧ WellFormed s.pass.stream.ahead ∨
      s.stream.current.kind = .printStart ∧ Within .printEnd s.pass.stream.ahead ∨
      s.stream.current.kind = .blockStart ∧ Within .blockEnd s.pass.stream.ahead := by
  by_cases ends : s.stream.current.kind = .endOfTemplate
  · exact .inl ends
  · rw [ahead_advance ends] at h
    exact h.cases_head

theorem Ahead.pass {p p' : Spot} {d d' : Due} (h : Ahead s p) (how : Passes s p d p' d') :
    Ahead s.pass p' := by
  cases how with
  | text kind | tag kind => simpa [kind, Ahead] using wellFormed_cases h
  | print kind => exact ⟨rfl, by simpa [kind] using wellFormed_cases h⟩
  | head kind _ | headExtends kind _ _ _ => exact ⟨rfl, within_pass h (by rw [kind]; rfl) rfl⟩
  | inner kind => exact ⟨h.1, within_pass h.2 kind h.1⟩
  | closer kind outer notEnd => exact wellFormed_pass h.2 kind outer notEnd
  | entered kind _ => exact wellFormed_pass h.2 kind rfl (by decide)

def ahead (v : Vocabulary) (tokens : List Token) : Outline v tokens where
  state p _ _ s := Ahead s p
  stray := False
  misplaced h other := by
    simp only [mem_cons, not_mem_nil, or_false, not_or] at other
    rcases wellFormed_cases h with is | ⟨is, -⟩ | ⟨is, -⟩ | ⟨is, -⟩
    · exact other.2.2.2 is
    · exact other.1 is
    · exact other.2.1 is
    · exact other.2.2.1 is
  perm _ h := h
  gather _ h := h
  spread _ h := h
  drop h := h
  pass how h := h.pass how
  opened _ _ _ _ h := h
  closed _ _ _ h := h
  extended _ _ h := h

end Outline

namespace Parse

theorem current_bind {α : Type} (f : Token → Parse α) (s : ParseState) :
    (current >>= f) s = f s.stream.current s :=
  rfl

variable {g : Grammar} (core : ∀ tag ∈ g.tags, tag ∈ coreTags)

include core

/-- Tokens that form a template are never found where no statement starts. -/
theorem tree_placed {tokens : Array Token} (formed : WellFormed tokens.toList)
    (name template : String) (line : Int) :
    tree g (.ofTokens tokens name) ≠ .error (.malformed .misplacedToken template line) := by
  have ahead : (ofTokens tokens name).ahead = tokens.toList := by
    obtain ⟨statements, final, same, -, hfinal⟩ := formed
    have back : tokens.back? = some final := by
      rw [← Array.getLast?_toList, same, getLast?_concat]
    simp [ahead, ofTokens, closed, back, hfinal]
  have read := (Outline.ahead g.vocabulary _).tree_ends core rfl (.ofTokens tokens name) rfl
    (show WellFormed (ofTokens tokens name).ahead from ahead ▸ formed)
  generalize tree g (.ofTokens tokens name) = ended at read
  cases read with
  | ok => simp
  | error expected =>
    intro is
    cases is
    exact expected rfl

end Parse

/-! ## Environments -/

theorem Parse.statementList_misplaced (g : Grammar) (hooks : Hooks) (stop : Option Stop)
    (fuel : Nat) (done : List Node) (s : ParseState)
    (other : s.stream.current.kind ∉ [.text, .printStart, .blockStart, .endOfTemplate]) :
    statementList g hooks stop (fuel + 1) done s
      = fail .misplacedToken s.stream.current.line s := by
  rw [statementList, current_bind]
  generalize s.stream.current = t at other ⊢
  obtain ⟨kind, value, line⟩ := t
  cases kind <;> first | rfl | simp at other

namespace Environment

variable {env : Environment}

theorem tokenize_formed {source name : String} {tokens : Array Token}
    (read : env.tokenize source name = .ok tokens) : WellFormed tokens.toList := by
  unfold tokenize at read
  dsimp only at read
  split at read
  · next found =>
    cases read
    exact Scanner.tokenize_formed found
  · cases read

/-- **The parser looks for a statement only where one can start.**  In a language whose tags are the
six, with any operators, filters, functions and tests, the tokens of a source are never refused for
a token that no statement starts with; and that is how every look at such a token, in whatever body
and after whatever statements, would end. -/
theorem parse_placed (env : Environment)
    (core : ∀ tag ∈ env.registry.grammar.tags, tag ∈ Parse.coreTags) (source name : String)
    (tokens : Array Token) (read : env.tokenize source name = .ok tokens) :
    (∀ template line, env.parse (.ofTokens tokens name)
      ≠ .error (.malformed .misplacedToken template line)) ∧
    ∀ hooks stop fuel done (s : ParseState),
      s.stream.current.kind ∉ [.text, .printStart, .blockStart, .endOfTemplate] →
      Parse.statementList env.registry.grammar hooks stop (fuel + 1) done s
        = Parse.fail .misplacedToken s.stream.current.line s := by
  refine ⟨fun template line failed => ?_, Parse.statementList_misplaced _⟩
  have placed := Parse.tree_placed core (tokenize_formed read) name template line
  unfold parse at failed
  generalize Parse.tree _ _ = ended at placed failed
  cases ended with
  | ok module => cases failed
  | error e => exact placed (congrArg _ (Except.error.inj failed))

theorem tokenize_core (options : Options) (loader : String → Except Failure String) (host : Host)
    {source : String} {tokens : Array Token}
    (read : (Scanner.tokenize Language.scanned source).toOption = some tokens) (name : String) :
    (ofCore options loader host).tokenize source name = .ok tokens := by
  unfold tokenize
  dsimp only
  rw [show (ofCore options loader host).registry.grammar.vocabulary = Registry.coreVocabulary
    from rfl, Registry.scanned_core]
  generalize Scanner.tokenize Language.scanned source = answer at read
  cases answer with
  | ok found => cases read; rfl
  | error e => cases read

def loopSource : String :=
  "\x7b% if a %\x7d\x7b% for b in a %\x7d<\x7b\x7b b \x7d\x7d>\x7b% endfor %\x7d\x7b% endif %\x7d"

theorem parse_placed_loop :
    (∀ tag ∈ (ofCore {} (fun _ => .ok "") ⟨#[]⟩).registry.grammar.tags, tag ∈ Parse.coreTags) ∧
    ∃ tokens, tokens.size = 22 ∧
      (ofCore {} (fun _ => .ok "") ⟨#[]⟩).tokenize loopSource "page" = .ok tokens ∧
      ∀ template line, (ofCore {} (fun _ => .ok "") ⟨#[]⟩).parse (.ofTokens tokens "page")
        ≠ .error (.malformed .misplacedToken template line) := by
  have scanned : ((Scanner.tokenize Language.scanned loopSource).toOption.map (·.size)) = some 22 :=
    by decide
  obtain ⟨tokens, read, size⟩ := Option.map_eq_some_iff.1 scanned
  have read := tokenize_core {} (fun _ => .ok "") ⟨#[]⟩ read "page"
  exact ⟨Registry.tags_core, tokens, size, read,
    (parse_placed _ Registry.tags_core loopSource "page" tokens read).1⟩

end Environment
end Stencil
