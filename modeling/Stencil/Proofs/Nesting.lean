import Stencil.Token

/-!
# Token lists that are templates

A template is a list of statements and an end token. A statement is some text, a print or a
statement block; between the two delimiters of a print or a block stand the tokens of an expression,
in which brackets and interpolations come in pairs that nest. `Nested` and `Statements` say this
outright, and `WellFormed` adds the end token.

A scanner only ever has the beginning of such a list, with some pairs still open. `Opened bs ts` is
that notion for expressions: `ts` is well nested but for the openings `bs`, innermost first. It has
one rule for each kind of token that can come next.
-/

namespace Stencil

open List
namespace Token

/-! ## Expressions -/

def Kind.isInner : Kind → Bool
  | .name | .number | .string | .operator | .punctuation => true
  | .interpolationStart | .interpolationEnd => true
  | _ => false

def opens? (t : Token) : Option String :=
  match t.kind with
  | .punctuation => if t.value ∈ ["(", "[", "\x7b"] then some t.value else none
  | .interpolationStart => some "#\x7b"
  | _ => none

def closes? (t : Token) : Option String :=
  match t.kind with
  | .punctuation => [(")", "("), ("]", "["), ("\x7d", "\x7b")].lookup t.value
  | .interpolationEnd => some "#\x7b"
  | _ => none

structure Loose (t : Token) : Prop where
  inner : t.kind.isInner = true
  opens : t.opens? = none
  closes : t.closes? = none

/-- Tokens of an expression in which everything that is opened is closed, and nothing else. -/
inductive Nested : List Token → Prop
  | nil : Nested []
  | loose {t ts} (ht : t.Loose) (rest : Nested ts) : Nested (t :: ts)
  | pair {o c bracket inner ts} (opens : o.opens? = some bracket)
    (closes : c.closes? = some bracket) (inside : Nested inner) (rest : Nested ts) :
    Nested (o :: (inner ++ c :: ts))

theorem Nested.append {xs ys : List Token} (hx : Nested xs) (hy : Nested ys) :
    Nested (xs ++ ys) := by
  induction hx with
  | nil => exact hy
  | loose ht _ ih => exact .loose ht ih
  | pair opens closes inside _ _ ih =>
    rw [cons_append, append_assoc, cons_append]
    exact .pair opens closes inside ih

theorem isInner_of_opens {t : Token} {b : String} (h : t.opens? = some b) :
    t.kind.isInner = true := by
  unfold opens? at h
  cases hk : t.kind <;> simp_all [Kind.isInner]

theorem isInner_of_closes {t : Token} {b : String} (h : t.closes? = some b) :
    t.kind.isInner = true := by
  unfold closes? at h
  cases hk : t.kind <;> simp_all [Kind.isInner]

theorem Nested.isInner {ts : List Token} (h : Nested ts) : ∀ t ∈ ts, t.kind.isInner = true := by
  induction h with
  | nil => simp
  | loose ht _ ih => simpa [ht.inner] using ih
  | pair opens closes _ _ ihi ih =>
    simp only [forall_mem_cons, forall_mem_append]
    exact ⟨isInner_of_opens opens, ihi, isInner_of_closes closes, ih⟩

/-! ### Expressions that are not finished -/

/-- Tokens of an expression that is well nested but for some openings, innermost first. -/
def Opened : List String → List Token → Prop
  | [], ts => Nested ts
  | b :: bs, ts => ∃ before o inner, ts = before ++ o :: inner ∧ Opened bs before ∧
      o.opens? = some b ∧ Nested inner

namespace Opened

variable {bs : List String} {ts : List Token} {t : Token}

theorem append (h : Opened bs ts) {us : List Token} (hu : Nested us) : Opened bs (ts ++ us) := by
  cases bs with
  | nil => exact h.append hu
  | cons b bs =>
    obtain ⟨before, o, inner, rfl, hbefore, ho, hinner⟩ := h
    exact ⟨before, o, inner ++ us, by simp, hbefore, ho, hinner.append hu⟩

theorem snoc_opening (h : Opened bs ts) {b : String} (ht : t.opens? = some b) :
    Opened (b :: bs) (ts ++ [t]) :=
  ⟨ts, t, [], rfl, h, ht, .nil⟩

theorem snoc_closing {b : String} (h : Opened (b :: bs) ts) (ht : t.closes? = some b) :
    Opened bs (ts ++ [t]) := by
  obtain ⟨before, o, inner, rfl, hbefore, ho, hinner⟩ := h
  rw [append_assoc]
  exact hbefore.append (.pair ho ht hinner .nil)

end Opened

/-! ## Statements -/

def Kind.closer? : Kind → Option Kind
  | .printStart => some .printEnd
  | .blockStart => some .blockEnd
  | _ => none

/-- Text, prints and statement blocks, one after another. -/
inductive Statements : List Token → Prop
  | nil : Statements []
  | text {t ts} (kind : t.kind = .text) (some : t.value ≠ "") (rest : Statements ts) :
    Statements (t :: ts)
  | enclosed {o c inner ts} (delimiters : o.kind.closer? = some c.kind) (inside : Nested inner)
    (rest : Statements ts) : Statements (o :: (inner ++ c :: ts))

theorem Statements.append {xs ys : List Token} (hx : Statements xs) (hy : Statements ys) :
    Statements (xs ++ ys) := by
  induction hx with
  | nil => exact hy
  | text kind some _ ih => exact .text kind some ih
  | enclosed delimiters inside _ ih =>
    rw [cons_append, append_assoc, cons_append]
    exact .enclosed delimiters inside ih

theorem Kind.closer?_eq_some {k c : Kind} (h : k.closer? = some c) :
    k = .printStart ∧ c = .printEnd ∨ k = .blockStart ∧ c = .blockEnd := by
  unfold Kind.closer? at h
  cases k <;> simp_all

theorem Statements.ne_end {ts : List Token} (h : Statements ts) :
    ∀ t ∈ ts, t.kind ≠ .endOfTemplate := by
  induction h with
  | nil => simp
  | text kind _ _ ih => simpa [kind] using ih
  | @enclosed o c inner ts delimiters inside _ ih =>
    have hinner : ∀ t ∈ inner, t.kind ≠ .endOfTemplate := by
      intro t ht hk
      simpa [hk, Kind.isInner] using inside.isInner t ht
    have hdelimiters : o.kind ≠ .endOfTemplate ∧ c.kind ≠ .endOfTemplate := by
      rcases Kind.closer?_eq_some delimiters with ⟨ho, hc⟩ | ⟨ho, hc⟩ <;> simp [ho, hc]
    simp only [forall_mem_cons, forall_mem_append]
    exact ⟨hdelimiters.1, hinner, hdelimiters.2, ih⟩

/-- Statements, and after them the only end token. -/
def WellFormed (tokens : List Token) : Prop :=
  ∃ statements final, tokens = statements ++ [final] ∧ Statements statements ∧
    final.kind = .endOfTemplate

end Token
end Stencil
