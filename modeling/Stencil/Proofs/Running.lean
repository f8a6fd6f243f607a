import Stencil.Proofs.Terms

/-!
# Parsing with known tokens ahead

`Parse.Runs x ts post` says of a step of a parse that it succeeds wherever the tokens ahead are
`ts`, and that its result and the tokens then ahead are related by `post`. There is a rule for each
of the basic steps, so that a reader is followed through its tokens one by one. Tokens are known by
what they say; their lines are left open.

The second half is about where the loops of the expression reader stop. `Follows`, `Stops` and
`Closes` are the tokens that may stand behind an operand, that end its suffixes, and that end an
expression; `runs_expressionStep` puts the parts of an expression together.
-/

namespace Stencil

open Content List ParseState Decimal

/-- The tokens ahead, without their lines. -/
def ParseState.ahead (s : ParseState) : List Content := s.stream.ahead.map Token.content

def Content.test (t : Content) (kind : Token.Kind) (values : List String) : Bool :=
  t.1 == kind && (values.isEmpty || values.contains t.2)

def Content.onLine (t : Content) (line : Int) : Token := ⟨t.1, t.2, line⟩

theorem ParseState.current_of_ahead {s : ParseState} {t : Content} {ts : List Content}
    (h : s.ahead = t :: ts) : ∃ line, s.stream.current = t.onLine line := by
  rw [ahead, TokenStream.ahead_eq_cons, map_cons, List.cons.injEq] at h
  exact ⟨s.stream.current.line, by rw [← h.1]; rfl⟩

theorem ParseState.ahead_pass {s : ParseState} {t : Content} {ts : List Content}
    (h : s.ahead = t :: ts) (inner : t.1 ≠ .endOfTemplate) : s.pass.ahead = ts := by
  obtain ⟨line, here⟩ := current_of_ahead h
  have inside : s.stream.current.kind ≠ .endOfTemplate := by rw [here]; exact inner
  rw [ahead, TokenStream.ahead_advance inside, map_cons, List.cons.injEq] at h
  exact h.2

namespace Parse

/-! ## Runs -/

/-- With these tokens ahead a step succeeds; its result and the tokens then ahead are as said. -/
def Runs {α : Type} (x : Parse α) (ts : List Content) (post : α → List Content → Prop) : Prop :=
  ∀ s : ParseState, s.ahead = ts → ∃ a s', x s = .ok (a, s') ∧ post a s'.ahead

section Rules

variable {α β : Type} {t : Content} {ts : List Content} {P : α → List Content → Prop}
  {Q : β → List Content → Prop}

variable {x : Parse α} {f : Token → Parse β} {kind : Token.Kind} {values : List String}

/-- A parse runs as its first step and then the rest do. -/
theorem Runs.seq {f : α → Parse β} (h : Runs x ts fun a left => Runs (f a) left Q) :
    Runs (x >>= f) ts Q := by
  intro s hs
  obtain ⟨a, s', hx, rest⟩ := h s hs
  obtain ⟨b, s'', hf, hb⟩ := rest s' rfl
  refine ⟨b, s'', ?_, hb⟩
  show (x s >>= fun r => f r.1 r.2) = _
  rw [hx]
  exact hf

theorem Runs.mono {R : α → List Content → Prop} (h : Runs x ts P)
    (weaker : ∀ a left, P a left → R a left) : Runs x ts R := by
  intro s hs
  obtain ⟨a, s', hx, ha⟩ := h s hs
  exact ⟨a, s', hx, weaker a _ ha⟩

theorem Runs.bind {x : Parse α} {f : α → Parse β} (hx : Runs x ts P)
    (hf : ∀ a left, P a left → Runs (f a) left Q) : Runs (x >>= f) ts Q :=
  .seq (hx.mono hf)

theorem runs_pure {a : α} (h : P a ts) : Runs (pure a) ts P := fun s hs => ⟨a, s, rfl, hs ▸ h⟩

theorem runs_if {c : Prop} [Decidable c] {yes no : Parse α} (hyes : c → Runs yes ts P)
    (hno : ¬c → Runs no ts P) : Runs (if c then yes else no) ts P := by
  by_cases h : c
  · rw [if_pos h]
    exact hyes h
  · rw [if_neg h]
    exact hno h

theorem runs_look {g : Token → α} {f : α → Parse β}
    (h : ∀ line, Runs (f (g (t.onLine line))) (t :: ts) Q) :
    Runs ((fun s => .ok (g s.stream.current, s) : Parse α) >>= f) (t :: ts) Q := by
  refine .seq fun s hs => ?_
  obtain ⟨line, here⟩ := current_of_ahead hs
  exact ⟨_, s, rfl, by rw [here, hs]; exact h line⟩

theorem runs_current (h : ∀ line, Runs (f (t.onLine line)) (t :: ts) Q) :
    Runs (current >>= f) (t :: ts) Q :=
  runs_look (g := id) h

theorem runs_atEnd {f : Bool → Parse β} (inner : t.1 ≠ .endOfTemplate)
    (h : Runs (f false) (t :: ts) Q) : Runs (atEnd >>= f) (t :: ts) Q := by
  refine runs_look (g := fun t => t.kind == .endOfTemplate) fun line => ?_
  rw [show ((t.onLine line).kind == .endOfTemplate) = false from beq_false_of_ne inner]
  exact h

theorem runs_remaining {f : Nat → Parse β} (h : Runs (f ts.length) ts Q) :
    Runs (remaining >>= f) ts Q := by
  refine .seq fun s hs => ⟨_, s, rfl, ?_⟩
  have same : s.stream.remaining = ts.length := by
    rw [TokenStream.remaining_eq, ← hs, ahead, length_map]
  rw [same, hs]
  exact h

theorem runs_next (inner : t.1 ≠ .endOfTemplate) (h : ∀ line, Runs (f (t.onLine line)) ts Q) :
    Runs (next >>= f) (t :: ts) Q := by
  refine .seq fun s hs => ⟨_, s.pass, rfl, ?_⟩
  obtain ⟨line, here⟩ := current_of_ahead hs
  rw [here, ahead_pass hs inner]
  exact h line

theorem ne_end_of_test (h : t.test kind values = true) (inner : kind ≠ .endOfTemplate) :
    t.1 ≠ .endOfTemplate := by
  rw [eq_of_beq (Bool.and_eq_true_iff.1 h).1]
  exact inner

theorem runs_nextIf {f : Option Token → Parse β} (asked : t.test kind values = true)
    (inner : kind ≠ .endOfTemplate) (h : ∀ line, Runs (f (some (t.onLine line))) ts Q) :
    Runs (nextIf kind values >>= f) (t :: ts) Q := by
  refine .seq fun s hs => ?_
  obtain ⟨line, here⟩ := current_of_ahead hs
  have passed : s.stream.test kind values = true := by rw [TokenStream.test, here]; exact asked
  refine ⟨some (t.onLine line), s.pass, ?_, ?_⟩
  · unfold nextIf TokenStream.nextIf?
    rw [if_pos passed, here]
    rfl
  · rw [ahead_pass hs (ne_end_of_test asked inner)]
    exact h line

theorem runs_nextIf_of_not {f : Option Token → Parse β} (other : t.test kind values = false)
    (h : Runs (f none) (t :: ts) Q) : Runs (nextIf kind values >>= f) (t :: ts) Q := by
  refine .seq fun s hs => ⟨none, s, ?_, hs ▸ h⟩
  obtain ⟨line, here⟩ := current_of_ahead hs
  have failed : s.stream.test kind values = false := by rw [TokenStream.test, here]; exact other
  unfold nextIf TokenStream.nextIf?
  rw [if_neg (by simp [failed])]

theorem runs_expectIn {context : String} (asked : t.test kind values = true)
    (inner : kind ≠ .endOfTemplate) (h : ∀ line, Runs (f (t.onLine line)) ts Q) :
    Runs (expectIn context kind values >>= f) (t :: ts) Q := by
  refine .seq fun s hs => ?_
  obtain ⟨line, here⟩ := current_of_ahead hs
  have passed : s.stream.test kind values = true := by rw [TokenStream.test, here]; exact asked
  refine ⟨t.onLine line, s.pass, ?_, ?_⟩
  · unfold expectIn TokenStream.expect
    rw [if_pos passed, here]
    rfl
  · rw [ahead_pass hs (ne_end_of_test asked inner)]
    exact h line

end Rules

/-! ## Marks -/

section Marks

variable {β : Type} {t : Content} {ts : List Content} {Q : β → List Content → Prop}

theorem test_mark (t : Content) (m : String) :
    t.test .punctuation [m] = decide (t = mark m) := by
  rw [Bool.eq_iff_iff]
  simp [Content.test, Prod.ext_iff]

variable {m : String} {f : Bool → Parse β}

theorem runs_testMark (h : Runs (f (decide (t = mark m))) (t :: ts) Q) :
    Runs (testMark m >>= f) (t :: ts) Q :=
  runs_look (g := (·.test .punctuation [m])) fun _ => by rwa [← test_mark] at h

theorem runs_expectMark {context : String} {f : Token → Parse β}
    (h : ∀ line, Runs (f ((mark m).onLine line)) ts Q) :
    Runs (expectMark context m >>= f) (mark m :: ts) Q :=
  runs_expectIn (by simp [test_mark]) (by decide) h

theorem runs_skipMark (h : Runs (f true) ts Q) : Runs (skipMark m >>= f) (mark m :: ts) Q :=
  (runs_nextIf (by simp [test_mark]) (by decide) fun _ => runs_pure ⟨rfl, rfl⟩ :
    Runs (skipMark m) _ fun b left => b = true ∧ left = ts).bind
      fun _ _ ⟨hb, hleft⟩ => hb ▸ hleft ▸ h

theorem runs_skipMark_of_ne (other : t ≠ mark m) (h : Runs (f false) (t :: ts) Q) :
    Runs (skipMark m >>= f) (t :: ts) Q :=
  (runs_nextIf_of_not (by simp [test_mark, other]) (runs_pure ⟨rfl, rfl⟩) :
    Runs (skipMark m) _ fun b left => b = false ∧ left = t :: ts).bind
      fun _ _ ⟨hb, hleft⟩ => hb ▸ hleft ▸ h

end Marks

/-! ## Constants -/

theorem digitValue_of_isDigit {c : Char} (h : c.isDigit = true) :
    digitValue c = some (c.toNat - 48) := by
  have digit : ('0' ≤ c && c ≤ '9') = true := by
    simpa [Char.isDigit, Char.le_def] using h
  rw [digitValue, if_pos digit]

theorem natOfDigits_toDigits (n : Nat) : natOfDigits 10 (Nat.toDigits 10 n) = n := by
  refine Eq.trans ?_ (Nat.ofDigitChars_toDigits (b := 10) (n := n) (by decide) (by decide))
  unfold natOfDigits Nat.ofDigitChars
  refine foldl_ext _ _ _ fun m c hc => ?_
  rw [digitValue_of_isDigit (Nat.isDigit_of_mem_toDigits (by decide) (by decide) hc),
    Option.getD_some, Nat.mul_comm]
  rfl

theorem splitSign_toDigits (n : Nat) :
    splitSign (Nat.toDigits 10 n) = (false, Nat.toDigits 10 n) := by
  obtain ⟨c, cs, whole⟩ := exists_cons_of_ne_nil (Nat.toDigits_ne_nil (n := n) (b := 10))
  have hc : c.isDigit = true :=
    Nat.isDigit_of_mem_toDigits (n := n) (b := 10) (by decide) (by decide) (by simp [whole])
  rw [whole]
  unfold splitSign
  split
  · next same => cases same; cases hc
  · next same => cases same; cases hc
  · rfl

theorem all_isDigitOf_toDigits (n : Nat) : (Nat.toDigits 10 n).all (isDigitOf 10) = true := by
  refine all_eq_true.2 fun c hc => ?_
  have digit := Nat.isDigit_of_mem_toDigits (by decide) (by decide) hc
  have small : c.toNat - 48 < 10 := by
    have range := digit
    simp only [Char.isDigit, UInt32.le_iff_toNat_le, ge_iff_le, Bool.and_eq_true,
      decide_eq_true_eq, Char.toNat_val] at range
    have nine : '9'.toNat = 57 := rfl
    omega
  simp [isDigitOf, digitValue_of_isDigit digit, small]

/-- A number is read as it is written. -/
theorem int64?_repr (n : Whole) : int64? n.val.repr = some (n.val : Int) := by
  have fits : fitsInt64 (n.val : Int) = true := by
    have := n.isLt
    simp only [fitsInt64, Bool.and_eq_true, decide_eq_true_eq]
    omega
  simp [int64?, Nat.toList_repr, splitSign_toDigits, all_isDigitOf_toDigits,
    natOfDigits_toDigits, fits, Nat.toDigits_ne_nil]

theorem numberConstant?_repr (n : Whole) (line : Int) :
    numberConstant? (Content.onLine (.number, n.val.repr) line) =
      some (.ofConstant (.int n.val) line) := by
  have plain : n.val.repr.toList.contains '.' = false := by
    rw [Nat.toList_repr, ← Bool.not_eq_true, contains_iff_mem]
    exact fun h => absurd (Nat.isDigit_of_mem_toDigits (by decide) (by decide) h) (by decide)
  rw [numberConstant?, if_neg (by rw [Content.onLine, plain]; decide)]
  simp only [Content.onLine, int64?_repr, Option.map_some]

theorem reserved?_eq_none (n : Variable) : reserved? n.1 = none := by
  have other : ∀ word ∈ ["true", "false", "none", "null"], Text.lower n.1 ≠ word :=
    fun word h same => n.2 (same ▸ h)
  unfold reserved?
  split
  · next same => exact absurd same (other _ (by decide))
  · next same => exact absurd same (other _ (by decide))
  · next same => exact absurd same (other _ (by decide))
  · next same => exact absurd same (other _ (by decide))
  · rfl

theorem reserved?_words : reserved? "true" = some (.bool true) ∧
    reserved? "false" = some (.bool false) ∧ reserved? "null" = some .null ∧
    reserved? "block" = none := by
  have words : ∀ word ∈ ["true", "false", "null", "block"], Text.lower word = word :=
    fun word h => lower_eq_self ((by decide : ∀ word ∈ ["true", "false", "null", "block"],
      word.toList.map Text.toLower = word.toList) word h)
  simp [reserved?, words]

/-! ## What may follow -/

def Closes (t : Content) : Prop :=
  t.1 = .printEnd ∨ t = (.operator, "=") ∨ ∃ m ∈ [")", "]", "\x7d", ",", ":"], t = mark m

def Follows (t : Content) : Prop :=
  t.1 = .printEnd ∨ t.1 = .operator ∨ ∃ m ≠ "(", t = mark m

/-- The tokens that end the suffixes of an operand. -/
def Stops (t : Content) : Prop := ∀ m ∈ [".", "[", "|"], t ≠ mark m

def Opens (t : Content) : Prop :=
  t.1 ∈ [.name, .number, .string, .operator] ∨ ∃ m ∈ ["(", "[", "\x7b"], t = mark m

section Following

variable {t : Content}

variable {m : String}

theorem closes_mark (h : m ∈ [")", "]", "\x7d", ",", ":"]) : Closes (mark m) :=
  .inr (.inr ⟨m, h, rfl⟩)

theorem follows_mark (h : m ≠ "(") : Follows (mark m) := .inr (.inr ⟨m, h, rfl⟩)

theorem follows_operator (op : String) : Follows (.operator, op) := .inr (.inl rfl)

theorem Closes.ne_mark (h : Closes t) (hm : m ∉ [")", "]", "\x7d", ",", ":"]) : t ≠ mark m := by
  rintro rfl
  rcases h with h | h | ⟨m', hm', same⟩
  · cases h
  · cases h
  · cases same
    exact hm hm'

theorem Closes.follows (h : Closes t) : Follows t := by
  rcases h with h | rfl | ⟨m, hm, rfl⟩
  · exact .inl h
  · exact follows_operator _
  · refine follows_mark ?_
    rintro rfl
    exact absurd hm (by decide)

theorem Closes.stops (h : Closes t) : Stops t := fun m hm =>
  h.ne_mark fun hm' => absurd hm ((by decide : ∀ m ∈ [")", "]", "\x7d", ",", ":"],
    m ∉ [".", "[", "|"]) m hm')

theorem Closes.equals (h : Closes t) (operator : t.1 = .operator) : t.2 = "=" := by
  rcases h with h | rfl | ⟨m, -, rfl⟩
  · cases operator.symm.trans h
  · rfl
  · cases operator

theorem Closes.binary?_eq_none (h : Closes t) {v : Vocabulary} (standard : v.Standard)
    (operator : t.1 = .operator) : v.binary? t.2 = none := by
  rw [h.equals operator]
  exact standard.equals

theorem stops_mark (h : m ∉ [".", "[", "|"]) : Stops (mark m) := by
  rintro m' hm' same
  cases same
  exact h hm'

theorem stops_operator (op : String) : Stops (.operator, op) := fun _ _ same => by cases same

theorem Follows.ne_paren (h : Follows t) : t ≠ mark "(" := by
  rintro rfl
  rcases h with h | h | ⟨m, hm, same⟩
  · cases h
  · cases h
  · cases same
    exact hm rfl

theorem Follows.kind (h : Follows t) : t.1 ∈ [.printEnd, .operator, .punctuation] := by
  rcases h with h | h | ⟨m, -, rfl⟩
  · simp [h]
  · simp [h]
  · simp

theorem Opens.ne_mark (h : Opens t) (hm : m ∉ ["(", "[", "\x7b"]) : t ≠ mark m := by
  rintro rfl
  rcases h with h | ⟨m', hm', same⟩
  · simp at h
  · cases same
    exact hm hm'

theorem Opens.ne_end (h : Opens t) : t.1 ≠ .endOfTemplate := by
  rcases h with h | ⟨m, -, rfl⟩
  · intro same
    simp [same] at h
  · simp

end Following

/-! ## Where reading stops -/

section Stopping

variable {v : Vocabulary} {self : Int → Parse Node} {t : Content} {ts : List Content}
  {Q : Node → List Content → Prop} {n : Node}

theorem runs_suffixes_of_stops (stops : Stops t) (h : Q n (t :: ts)) (fuel : Nat) :
    Runs (suffixes v self (fuel + 1) n) (t :: ts) Q := by
  obtain ⟨kind, value⟩ := t
  refine runs_current fun line => runs_if (fun punctuation => ?_) fun _ => runs_pure h
  obtain rfl : kind = .punctuation := eq_of_beq punctuation
  have other {m : String} (hm : m ∈ [".", "[", "|"]) : ¬(value == m) = true :=
    fun same => stops m hm (by rw [eq_of_beq same])
  refine runs_if (fun here => ?_) fun _ => runs_if (fun here => ?_) fun _ => runs_pure h
  · exact absurd (Bool.or_eq_true_iff.1 here) (not_or.2 ⟨other (by simp), other (by simp)⟩)
  · exact absurd here (other (by simp))

theorem runs_operators_of_none {precedence : Int} (none : t.1 = .operator → v.binary? t.2 = none)
    (h : Q n (t :: ts)) (fuel : Nat) : Runs (operators v self precedence (fuel + 1) n) (t :: ts) Q := by
  refine runs_current fun line => ?_
  have found : (if (t.onLine line).kind == .operator then
      v.binary? (t.onLine line).value else .none) = .none := by
    split
    · next operator => exact none (eq_of_beq operator)
    · rfl
  dsimp only
  rw [found]
  exact runs_pure h

theorem runs_conditionals_of_ne (other : t ≠ mark "?") (h : Q n (t :: ts)) (fuel : Nat) :
    Runs (conditionals self (fuel + 1) n) (t :: ts) Q :=
  runs_nextIf_of_not (by simp [test_mark, other]) (runs_pure h)

theorem runs_expressionStep {precedence : Int} {P R : Node → List Content → Prop}
    (first : Runs (operand v self) ts P)
    (second : ∀ n left, P n left → Runs (operators v self precedence left.length n) left R)
    (third : ∀ n left, R n left → ∃ t rest, left = t :: rest ∧ (t.1 = .operator → t.2 = "=") ∧
      (precedence = 0 → Runs (conditionals self left.length n) left Q) ∧
      (precedence ≠ 0 → Q n left)) :
    Runs (expressionStep v self precedence) ts Q := by
  refine first.bind fun n left hleft => runs_remaining ?_
  refine (second n left hleft).bind fun n left hn => ?_
  obtain ⟨t, rest, rfl, equals, conditional, done⟩ := third n left hn
  refine runs_current fun line => runs_if (fun unsupported => ?_) fun _ => ?_
  · simp only [Bool.and_eq_true, beq_iff_eq, bne_iff_ne] at unsupported
    exact absurd (equals unsupported.1.1) unsupported.1.2
  · refine runs_if (fun zero => runs_remaining (conditional (eq_of_beq zero))) fun other => ?_
    exact runs_pure (done fun same => other (beq_iff_eq.2 same))

end Stopping

end Parse
end Stencil
