import Stencil.Token.Stream

/-!
# Whatever is done to a token cursor

A cursor is made from any tokens and then used in any way. `TokenStream.Moves` says all that one
operation can do to it: leave it alone, or pass one token that is no end token. From that it follows
what all uses have in common (`TokenStream.Op.runAll_safe`).
-/

namespace Stencil.TokenStream

inductive Op
  | current
  | next
  | look (n : Int)
  | test (kind : Token.Kind) (values : List String)
  | nextIf (kind : Token.Kind) (values : List String)
  | expect (context : String) (kind : Token.Kind) (values : List String)

inductive Answer
  | token (t : Token)
  | verdict (holds : Bool)
  | missing
  | refused (reason : Malformed) (line : Int)

namespace Op

def run : Op → TokenStream → Answer × TokenStream
  | current, s => (.token s.current, s)
  | next, s => (.token s.current, s.advance)
  | look n, s => (.token (s.look n), s)
  | test kind values, s => (.verdict (s.test kind values), s)
  | nextIf kind values, s =>
    match s.nextIf? kind values with
    | some (t, s') => (.token t, s')
    | none => (.missing, s)
  | expect context kind values, s =>
    match s.expect context kind values with
    | .ok (t, s') => (.token t, s')
    | .error (reason, line) => (.refused reason line, s)

def runAll (ops : List Op) (s : TokenStream) : TokenStream := ops.foldl (fun s op => (op.run s).2) s

end Op

/-- A cursor is where it was, or has passed a token that is no end token. -/
structure Moves (s s' : TokenStream) : Prop where
  tokens : s'.tokens = s.tokens
  position : s'.position = s.position ∨
    s.current.kind ≠ .endOfTemplate ∧ s'.position = s.position + 1

/-- No end token stands before the cursor. -/
def Unended (s : TokenStream) : Prop :=
  ∀ i < s.position, ∀ t, s.tokens[i]? = some t → t.kind ≠ .endOfTemplate

variable {s s' : TokenStream}

theorem getElem?_position (s : TokenStream) : s.tokens[s.position]? = some s.current :=
  Array.getElem?_eq_getElem s.inBounds

theorem getElem?_look (s : TokenStream) (n : Int) :
    ∃ i : Nat, s.tokens[i]? = some (s.look n) ∧
      i = max 0 (min ((s.position + n).bmod 18446744073709551616) (s.tokens.size - 1)) := by
  have := s.inBounds
  exact ⟨_, Array.getElem?_eq_getElem _, by omega⟩

theorem Moves.unended (h : Moves s s') (before : s.Unended) : s'.Unended := by
  intro i hi t
  rw [h.tokens]
  rcases h.position with same | ⟨other, next⟩
  · exact before i (same ▸ hi) t
  · rcases Nat.lt_succ_iff_lt_or_eq.1 (next ▸ hi) with earlier | rfl
    · exact before i earlier t
    · rw [getElem?_position]
      rintro ⟨⟩
      exact other

theorem moves_advance (s : TokenStream) : Moves s s.advance := by
  refine ⟨tokens_advance s, ?_⟩
  by_cases ended : s.current.kind = .endOfTemplate
  · exact .inl (by rw [advance, dif_pos ended])
  · exact .inr ⟨ended, position_advance ended⟩

theorem position_advance_iff :
    s.advance.position = s.position + 1 ↔ s.current.kind ≠ .endOfTemplate := by
  rcases (moves_advance s).position with same | ⟨other, next⟩
  · refine ⟨fun next => by omega, fun other => ?_⟩
    exact position_advance other
  · exact iff_of_true next other

namespace Op

/-- A token is asked for and there, and is passed; or nothing happens. -/
theorem run_of_asking {op : Op} {context : String} {kind : Token.Kind} {values : List String}
    (asks : op ∈ [nextIf kind values, expect context kind values]) :
    s.test kind values = true ∧ op.run s = (.token s.current, s.advance) ∨
      s.test kind values = false ∧ (∀ t, (op.run s).1 ≠ .token t) ∧ (op.run s).2 = s := by
  simp only [List.mem_cons, List.not_mem_nil, or_false] at asks
  rcases asks with rfl | rfl
  all_goals
    simp only [run, nextIf?, TokenStream.expect]
    cases s.test kind values with
    | true => exact .inl ⟨rfl, rfl⟩
    | false => exact .inr ⟨rfl, fun _ => Answer.noConfusion, rfl⟩

theorem moves_run (op : Op) (s : TokenStream) : Moves s (op.run s).2 := by
  have stays : Moves s s := ⟨rfl, .inl rfl⟩
  have asked {op : Op} (context : String) {kind : Token.Kind} {values : List String}
      (asks : op ∈ [nextIf kind values, expect context kind values]) : Moves s (op.run s).2 := by
    rcases run_of_asking (s := s) asks with ⟨-, passed⟩ | ⟨-, -, same⟩
    · rw [passed]
      exact moves_advance s
    · rw [same]
      exact stays
  cases op with
  | current | look | test => exact stays
  | next => exact moves_advance s
  | nextIf kind values => exact asked "" (List.mem_cons_self ..)
  | expect context kind values => exact asked context (List.mem_cons_of_mem _ (List.mem_cons_self ..))

theorem runAll_unended (ops : List Op) (before : s.Unended) :
    (runAll ops s).tokens = s.tokens ∧ (runAll ops s).Unended := by
  induction ops generalizing s with
  | nil => exact ⟨rfl, before⟩
  | cons op ops ih =>
    have first := moves_run op s
    obtain ⟨same, unended⟩ := ih (first.unended before)
    exact ⟨same.trans first.tokens, unended⟩

/-- **A cursor is safe under any use.**  Wherever some operations have led it, the tokens are still
those it was made from, it is within them, and so is each place ahead that is looked at. No end token
stands before it. One more operation passes one token at most. If the operation asks for a token, that
one is passed if it is there and no end token, and else nothing happens. -/
theorem runAll_safe (tokens : Array Token) (template : String) (ops : List Op) (op : Op) :
    let s := runAll ops (ofTokens tokens template)
    let s' := (op.run s).2
    (s.tokens[s.position]? = some s.current ∧ ∀ n, ∃ i : Nat, s.tokens[i]? = some (s.look n) ∧
      i = max 0 (min ((s.position + n).bmod 18446744073709551616) (s.tokens.size - 1))) ∧
    (s.tokens = closed tokens ∧ s'.tokens = closed tokens) ∧
    (s.position ≤ s'.position ∧ s'.position ≤ s.position + 1 ∧ s.Unended ∧ s'.Unended) ∧
    ∀ context kind values, op ∈ [nextIf kind values, expect context kind values] →
      ((op.run s).1 = .token s.current ↔ s.test kind values = true) ∧
      (s'.position = s.position + 1 ↔
        (op.run s).1 = .token s.current ∧ s.current.kind ≠ .endOfTemplate) ∧
      ((∀ t, (op.run s).1 ≠ .token t) → s' = s) := by
  intro s s'
  obtain ⟨same, unended⟩ : s.tokens = closed tokens ∧ s.Unended :=
    runAll_unended ops fun i none => absurd none (Nat.not_lt_zero i)
  have moves : Moves s s' := moves_run op s
  refine ⟨⟨getElem?_position s, getElem?_look s⟩, ⟨same, moves.tokens.trans same⟩,
    ⟨?_, ?_, unended, moves.unended unended⟩, fun context kind values asks => ?_⟩
  · rcases moves.position with h | h <;> omega
  · rcases moves.position with h | h <;> omega
  · rcases run_of_asking (s := s) asks with ⟨there, passed⟩ | ⟨missing, silent, stays⟩
    · have moved : s' = s.advance := congrArg Prod.snd passed
      rw [moved, passed, position_advance_iff]
      simp [there]
    · have stays : s' = s := stays
      simp [stays, silent, missing]

/-- An end token among others is there if it is asked for, and is not passed. -/
theorem runAll_safe_interior :
    let s := runAll [next, next, look 7]
      (ofTokens #[⟨.name, "a", 1⟩, ⟨.endOfTemplate, "", 1⟩, ⟨.name, "b", 2⟩] "page")
    let asked := (nextIf .endOfTemplate []).run s
    asked.1 = .token s.current ∧ asked.2.position ≠ s.position + 1 := by
  intro s asked
  obtain ⟨answer, passed, -⟩ := (runAll_safe #[⟨.name, "a", 1⟩, ⟨.endOfTemplate, "", 1⟩, ⟨.name, "b", 2⟩]
    "page" [next, next, look 7] (nextIf .endOfTemplate [])).2.2.2 "" _ _ (List.mem_cons_self ..)
  exact ⟨answer.2 (by decide), fun moved => (passed.1 moved).2 (by decide)⟩

end Op
end Stencil.TokenStream
