import Stencil.Failure.Malformed

/-!
# The token cursor

A stream is a list of tokens that ends with an end token, and a position in it.  The position only
moves forward, one token at a time, and never leaves an end token: once it stands on one it stays
there.

The two proof fields say that the position lies in the list and that the list ends with an end
token.  Every operation keeps them, so no access can fall outside.
-/

namespace Stencil

structure TokenStream where
  tokens : Array Token
  position : Nat
  template : String
  inBounds : position < tokens.size
  ends : ∃ t, tokens.back? = some t ∧ t.kind = .endOfTemplate

namespace TokenStream

/-! ## Making a stream -/

def closed (tokens : Array Token) : Array Token :=
  match tokens.back? with
  | some t => if t.kind = .endOfTemplate then tokens else tokens.push ⟨.endOfTemplate, "", t.line⟩
  | none => #[⟨.endOfTemplate, "", 1⟩]

theorem back_closed (tokens : Array Token) :
    ∃ t, (closed tokens).back? = some t ∧ t.kind = .endOfTemplate := by
  unfold closed
  cases h : tokens.back? with
  | none => exact ⟨_, rfl, rfl⟩
  | some t =>
    dsimp only
    by_cases ht : t.kind = .endOfTemplate
    · rw [if_pos ht]; exact ⟨t, h, ht⟩
    · rw [if_neg ht]; exact ⟨_, Array.back?_push, rfl⟩

theorem size_closed_pos (tokens : Array Token) : 0 < (closed tokens).size := by
  obtain ⟨t, ht, _⟩ := back_closed tokens
  rcases Nat.eq_zero_or_pos (closed tokens).size with h | h
  · simp [Array.eq_empty_of_size_eq_zero h] at ht
  · exact h

def ofTokens (tokens : Array Token) (template : String) : TokenStream where
  tokens := closed tokens
  position := 0
  template := template
  inBounds := size_closed_pos tokens
  ends := back_closed tokens

/-! ## Reading -/

def current (s : TokenStream) : Token :=
  have := s.inBounds
  s.tokens[s.position]

def atEnd (s : TokenStream) : Bool := s.current.kind == .endOfTemplate

def test (s : TokenStream) (kind : Token.Kind) (values : List String) : Bool :=
  s.current.test kind values

/-- The token `n` places ahead, or the nearest one there is.  Places are counted in 64 bits. -/
def look (s : TokenStream) (n : Int) : Token :=
  let i := min ((s.position + n).bmod 18446744073709551616).toNat (s.tokens.size - 1)
  have : i < s.tokens.size := by have := s.inBounds; omega
  s.tokens[i]

def remaining (s : TokenStream) : Nat := s.tokens.size - s.position

/-! ## Moving -/

theorem succ_lt_size (s : TokenStream) (h : s.current.kind ≠ .endOfTemplate) :
    s.position + 1 < s.tokens.size := by
  obtain ⟨t, ht, hk⟩ := s.ends
  have hb := s.inBounds
  rcases Nat.lt_or_ge (s.position + 1) s.tokens.size with hlt | hge
  · exact hlt
  · exfalso
    apply h
    have heq : s.position = s.tokens.size - 1 := by omega
    rw [Array.back?_eq_getElem?, ← heq, Array.getElem?_eq_getElem hb] at ht
    rw [current, Option.some.inj ht, hk]

def advance (s : TokenStream) : TokenStream :=
  if h : s.current.kind = .endOfTemplate then s
  else { s with position := s.position + 1, inBounds := s.succ_lt_size h }

def nextIf? (s : TokenStream) (kind : Token.Kind) (values : List String) :
    Option (Token × TokenStream) :=
  if s.test kind values then some (s.current, s.advance) else none

/-- Skips the current token when it matches, and complains otherwise; `context` explains what was
being read. -/
def expect (s : TokenStream) (context : String) (kind : Token.Kind) (values : List String) :
    Except (Malformed × Int) (Token × TokenStream) :=
  if s.test kind values then .ok (s.current, s.advance)
  else .error (.unexpected context s.current.kind s.current.value kind values.head?, s.current.line)

/-! ## What moving does -/

@[simp] theorem tokens_advance (s : TokenStream) : s.advance.tokens = s.tokens := by
  unfold advance; split <;> rfl

@[simp] theorem template_advance (s : TokenStream) : s.advance.template = s.template := by
  unfold advance; split <;> rfl

theorem position_advance {s : TokenStream} (h : s.current.kind ≠ .endOfTemplate) :
    s.advance.position = s.position + 1 := by
  simp [advance, h]

end TokenStream
end Stencil
