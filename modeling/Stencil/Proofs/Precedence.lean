import Stencil.Proofs.Running

/-!
# Precedence climbing

A `Chain` is what stands before the parser: an operand, then operators and operands in turn. A
`Tree` is one way to group a chain, and it is `Tree.Grouped` when at each of its nodes the operators
on both sides bind tightly enough.

* `Tree.eq_of_chain`: a chain has at most one grouping.
* `selfClimbs_nested`: the reader of expressions builds a grouped tree, takes operators as long as
  they bind at least as tightly as asked, and stops in front of the first that does not.
* `expression_reads_grouped`: reading a whole chain gives its one grouping.

Both conditions on a node compare a precedence with the `reach` of an operator, the least precedence
it leaves to its right operand; this is what the reader asks of the right side, as long as the
number that follows a precedence fits into 64 bits.
-/

namespace Stencil

open List
namespace Parse

/-! ## Chains and their trees -/

structure Leaf where
  token : Token
  isName : token.kind = .name
  free : reserved? token.value = none

structure Connective (v : Vocabulary) where
  token : Token
  operator : BinaryOperator
  kind : Node.Kind
  isOperator : token.kind = .operator
  registered : v.binary? token.value = some operator
  operand : operator.right = .operand kind

/-- Operands with operators between them. -/
@[ext] structure Chain (v : Vocabulary) where
  first : Leaf
  /-- The operators, each with the operand behind it. -/
  rest : List (Connective v × Leaf)

inductive Tree (v : Vocabulary)
  | leaf (a : Leaf)
  | node (left : Tree v) (o : Connective v) (right : Tree v)

variable {v : Vocabulary}

def Connective.precedence (o : Connective v) : Int := o.operator.precedence

def links (rest : List (Connective v × Leaf)) : List Token :=
  rest.flatMap fun link => [link.1.token, link.2.token]

def Chain.tokens (chain : Chain v) : List Token := chain.first.token :: links chain.rest

namespace Tree

def root? : Tree v → Option (Connective v)
  | leaf _ => none
  | node _ o _ => some o

/-- The operands and operators from left to right. -/
def chain : Tree v → Chain v
  | leaf a => ⟨a, []⟩
  | node left o right =>
    ⟨left.chain.first, left.chain.rest ++ (o, right.chain.first) :: right.chain.rest⟩

def toNode : Tree v → Node
  | leaf a => Node.ofName a.token.value a.token.line
  | node left o right => .plain o.kind o.token.line [left.toNode, right.toNode]

end Tree

/-! ## Groupings -/

/-- Whether `r` may be the outermost operator on the right of `o`. -/
def Connective.Admits (o r : Connective v) : Prop :=
  match o.operator.associativity with
  | .left => o.precedence < r.precedence
  | .right => o.precedence ≤ r.precedence

/-- Whether `l` may be the outermost operator on the left of `o`. -/
def Connective.Extends (o l : Connective v) : Prop :=
  match l.operator.associativity with
  | .left => o.precedence ≤ l.precedence
  | .right => o.precedence < l.precedence

/-- Each node admits the operators on its two sides. -/
def Tree.Grouped : Tree v → Prop
  | leaf _ => True
  | node left o right => left.Grouped ∧ right.Grouped ∧
      (∀ r ∈ right.root?, o.Admits r) ∧ (∀ l ∈ left.root?, o.Extends l)

def Connective.reach (o : Connective v) : Int :=
  match o.operator.associativity with
  | .left => o.precedence + 1
  | .right => o.precedence

theorem Connective.admits_iff {o r : Connective v} : o.Admits r ↔ o.reach ≤ r.precedence := by
  unfold Admits reach
  cases o.operator.associativity
  · exact Int.lt_iff_add_one_le
  · exact Iff.rfl

theorem Connective.extends_iff {o l : Connective v} : o.Extends l ↔ o.precedence < l.reach := by
  unfold Extends reach
  cases l.operator.associativity
  · exact Int.lt_add_one_iff.symm
  · exact Iff.rfl

theorem Connective.precedence_le_reach (o : Connective v) : o.precedence ≤ o.reach := by
  unfold reach
  cases o.operator.associativity
  · exact Int.le_of_lt (Int.lt_succ _)
  · exact Int.le_refl _

theorem Connective.reach_le (o : Connective v) : o.reach ≤ o.precedence + 1 := by
  unfold reach
  cases o.operator.associativity
  · exact Int.le_refl _
  · exact Int.le_of_lt (Int.lt_succ _)

/-! ## A chain has at most one grouping -/

namespace Tree

variable {tree l r l' r' : Tree v} {o o' : Connective v}

theorem Grouped.le_precedence (h : tree.Grouped) {k : Int}
    (root : ∀ x ∈ tree.root?, k ≤ x.precedence) : ∀ y ∈ tree.chain.rest, k ≤ y.1.precedence := by
  induction tree with
  | leaf a => simp [chain]
  | node left o right ihl ihr =>
    obtain ⟨hl, hr, admits, goesOn⟩ := h
    have here : k ≤ o.precedence := root o rfl
    intro y hy
    rcases mem_append.1 hy with hy | hy
    · refine ihl hl (fun z hz => ?_) y hy
      have := Connective.extends_iff.1 (goesOn z hz)
      have := z.reach_le
      omega
    · rcases mem_cons.1 hy with rfl | hy
      · exact here
      · refine ihr hr (fun z hz => ?_) y hy
        have := Connective.admits_iff.1 (admits z hz)
        have := o.precedence_le_reach
        omega

/-- Where the outermost operator may stand on the left of an operator, all operators may. -/
theorem Grouped.lt_reach (h : tree.Grouped) {k : Int} (root : ∀ x ∈ tree.root?, k < x.reach) :
    ∀ y ∈ tree.chain.rest, k < y.1.reach := by
  induction tree with
  | leaf a => simp [chain]
  | node left o right ihl ihr =>
    obtain ⟨hl, hr, admits, goesOn⟩ := h
    have here : k < o.reach := root o rfl
    intro y hy
    rcases mem_append.1 hy with hy | hy
    · refine ihl hl (fun z hz => ?_) y hy
      have := Connective.extends_iff.1 (goesOn z hz)
      have := o.reach_le
      omega
    · rcases mem_cons.1 hy with rfl | hy
      · exact here
      · have tight := hr.le_precedence (fun z hz => Connective.admits_iff.1 (admits z hz)) y hy
        have := y.1.precedence_le_reach
        omega

/-- In two groupings of a chain the outermost operator of the first does not come later: it would
have the one of the second on its left, and stand on the right of it in the second. -/
theorem Grouped.not_later (h : (node l o r).Grouped) (h' : (node l' o' r').Grouped)
    {x : Connective v × Leaf} {between : List (Connective v × Leaf)}
    (before : l.chain.rest = l'.chain.rest ++ x :: between)
    (after : (o', r'.chain.first) :: r'.chain.rest = x :: between ++ (o, r.chain.first) ::
      r.chain.rest) : False := by
  obtain ⟨hl, -, -, goesOn⟩ := h
  obtain ⟨-, hr', admits, -⟩ := h'
  obtain ⟨rfl, behind⟩ := List.cons.inj after
  have loose : o.precedence < o'.reach := by
    refine hl.lt_reach (fun z hz => Connective.extends_iff.1 (goesOn z hz)) (o', r'.chain.first) ?_
    rw [before]
    exact mem_append_right _ mem_cons_self
  have tight : o'.reach ≤ o.precedence := by
    refine hr'.le_precedence (fun z hz => Connective.admits_iff.1 (admits z hz))
      (o, r.chain.first) ?_
    rw [behind]
    exact mem_append_right _ mem_cons_self
  omega

/-- What stands before the outermost operator is the same in two groupings of a chain. -/
theorem Grouped.rest_eq (h : (node l o r).Grouped) (h' : (node l' o' r').Grouped)
    (same : (node l' o' r').chain.rest = (node l o r).chain.rest) :
    l'.chain.rest = l.chain.rest := by
  rcases append_eq_append_iff.1 same with ⟨between, hl, hr⟩ | ⟨between, hl, hr⟩
  · cases between with
    | nil => rw [hl, append_nil]
    | cons x between => exact (h.not_later h' hl hr).elim
  · cases between with
    | nil => rw [hl, append_nil]
    | cons x between => exact (h'.not_later h hl hr).elim

theorem eq_of_chain {other : Tree v} (h : tree.Grouped) (h' : other.Grouped)
    (same : other.chain = tree.chain) : other = tree := by
  induction tree generalizing other with
  | leaf a =>
    cases other with
    | leaf b => cases same; rfl
    | node l o r => simp [chain] at same
  | node l o r ihl ihr =>
    cases other with
    | leaf b => simp [chain] at same
    | node l' o' r' =>
      obtain ⟨first, rest⟩ := Chain.ext_iff.1 same
      have left : l'.chain.rest = l.chain.rest := h.rest_eq h' rest
      obtain ⟨middle, right⟩ := List.cons.inj (append_inj rest (by rw [left])).2
      obtain ⟨rfl, next⟩ := Prod.mk.inj middle
      rw [ihl h.1 h'.1 (Chain.ext first left), ihr h.2.1 h'.2.1 (Chain.ext next right)]

end Tree

/-! ## Reading with known tokens ahead -/

/-- With the tokens `ts` ahead a step succeeds, and the tokens `left` are ahead then. -/
def Reads {α : Type} (x : Parse α) (ts : List Token) (a : α) (left : List Token) : Prop :=
  ∀ s : ParseState, s.stream.ahead = ts → ∃ s', x s = .ok (a, s') ∧ s'.stream.ahead = left

section Rules

variable {α β : Type} {t : Token} {ts mid left : List Token}

theorem Reads.bind {x : Parse α} {f : α → Parse β} {a : α} {b : β} (hx : Reads x ts a mid)
    (hf : Reads (f a) mid b left) : Reads (x >>= f) ts b left := by
  intro s hs
  obtain ⟨s', hx, hs'⟩ := hx s hs
  obtain ⟨s'', hf, hs''⟩ := hf s' hs'
  refine ⟨s'', ?_, hs''⟩
  show (x s >>= fun r => f r.1 r.2) = _
  rw [hx]
  exact hf

theorem reads_pure (a : α) : Reads (pure a) ts a ts := fun s hs => ⟨s, rfl, hs⟩

theorem current_of_ahead {s : ParseState} (h : s.stream.ahead = t :: ts) : s.stream.current = t := by
  rw [TokenStream.ahead_eq_cons] at h
  exact (List.cons.inj h).1

theorem reads_current : Reads current (t :: ts) t (t :: ts) := fun s hs =>
  ⟨s, by rw [← current_of_ahead hs]; rfl, hs⟩

theorem reads_remaining : Reads remaining ts ts.length ts := fun s hs =>
  ⟨s, by rw [← hs, ← TokenStream.remaining_eq]; rfl, hs⟩

theorem reads_next (inner : t.kind ≠ .endOfTemplate) : Reads next (t :: ts) t ts := by
  intro s hs
  have here := current_of_ahead hs
  refine ⟨s.pass, by rw [← here]; rfl, ?_⟩
  rw [TokenStream.ahead_advance (here ▸ inner)] at hs
  exact (List.cons.inj hs).2

theorem reads_testMark {m : String} (other : t.kind ≠ .punctuation) :
    Reads (testMark m) (t :: ts) false (t :: ts) := by
  refine fun s hs => ⟨s, ?_, hs⟩
  show Except.ok (s.stream.current.test .punctuation [m], s) = _
  rw [current_of_ahead hs, Token.test, beq_false_of_ne other, Bool.false_and]

theorem reads_nextIf_mark {m : String} (other : t.kind ≠ .punctuation) :
    Reads (nextIf .punctuation [m]) (t :: ts) none (t :: ts) := by
  refine fun s hs => ⟨s, ?_, hs⟩
  have failed : s.stream.test .punctuation [m] = false := by
    rw [TokenStream.test, current_of_ahead hs, Token.test, beq_false_of_ne other, Bool.false_and]
  unfold nextIf TokenStream.nextIf?
  rw [if_neg (by rw [failed]; decide)]

end Rules

/-! ## Operands -/

section Climbing

variable {self : Int → Parse Node} {t : Token} {ts : List Token}

theorem reads_withSuffixes (other : t.kind ≠ .punctuation) (n : Node) :
    Reads (withSuffixes v self n) (t :: ts) n (t :: ts) := by
  refine reads_remaining.bind ?_
  rw [length_cons, suffixes]
  refine reads_current.bind ?_
  rw [if_neg (by rw [beq_iff_eq]; exact other)]
  exact reads_pure n

theorem reads_simple (a : Leaf) (other : t.kind ≠ .punctuation) :
    Reads (simple v self) (a.token :: t :: ts) (Node.ofName a.token.value a.token.line) (t :: ts) := by
  refine reads_current.bind ?_
  rw [a.isName]
  refine (reads_next (by rw [a.isName]; decide)).bind ?_
  rw [a.free]
  exact (reads_testMark other).bind (reads_pure _)

theorem reads_operand (a : Leaf) (other : t.kind ≠ .punctuation) :
    Reads (operand v self) (a.token :: t :: ts) (Tree.leaf (v := v) a).toNode (t :: ts) := by
  refine reads_current.bind ?_
  dsimp only
  rw [if_neg (by rw [a.isName]; decide)]
  dsimp only
  rw [if_neg (by simp [Token.isMark, Token.test, a.isName])]
  exact (reads_simple a other).bind (reads_withSuffixes other _)

/-! ## Operators -/

/-- The number after the precedence of a left associative operator fits into 64 bits. -/
def Connective.Fits (o : Connective v) : Prop :=
  0 ≤ o.precedence ∧
    (o.operator.associativity = .left → o.precedence < 0x7fffffffffffffff)

variable {o : Connective v} {k : Int} {a : Leaf} {all left : List (Connective v × Leaf)}
  {tree : Tree v}

theorem Connective.Fits.rightPrecedence (h : o.Fits) : o.operator.rightPrecedence = o.reach := by
  obtain ⟨nonneg, room⟩ := h
  unfold BinaryOperator.rightPrecedence reach
  cases side : o.operator.associativity with
  | left =>
    have := room side
    exact Int.bmod_eq_of_le (by unfold precedence at *; omega) (by unfold precedence at *; omega)
  | right => rfl

/-- What reading at precedence `k` has made of an operand and the operators behind it: a tree of
those that it has passed. The next operator does not belong to the right operand of the last. -/
structure Climbs (k : Int) (a : Leaf) (all : List (Connective v × Leaf)) (tree : Tree v)
    (left : List (Connective v × Leaf)) : Prop where
  first : tree.chain.first = a
  rest : tree.chain.rest ++ left = all
  grouped : tree.Grouped
  tight : ∀ x ∈ tree.root?, k ≤ x.precedence
  goesOn : ∀ x ∈ tree.root?, ∀ y ∈ left.head?, y.1.precedence < x.reach

/-- The next operator does not bind tightly enough. -/
def Pauses (k : Int) (left : List (Connective v × Leaf)) : Prop :=
  ∀ x ∈ left.head?, x.1.precedence < k

theorem Climbs.leaf (k : Int) (a : Leaf) (all : List (Connective v × Leaf)) :
    Climbs k a all (.leaf a) all where
  first := rfl
  rest := rfl
  grouped := trivial
  tight := by simp [Tree.root?]
  goesOn := by simp [Tree.root?]

theorem Climbs.node {b : Leaf} {rest : List (Connective v × Leaf)} {right : Tree v}
    (h : Climbs k a all tree ((o, b) :: rest)) (binds : k ≤ o.precedence)
    (hr : Climbs o.reach b rest right left) (pauses : Pauses o.reach left) :
    Climbs k a all (.node tree o right) left where
  first := h.first
  rest := by rw [← h.rest, ← hr.rest, ← hr.first, Tree.chain, append_assoc, cons_append]
  grouped := ⟨h.grouped, hr.grouped, fun r hr' => Connective.admits_iff.2 (hr.tight r hr'),
    fun l hl => Connective.extends_iff.2 (h.goesOn l hl (o, b) rfl)⟩
  tight := by rintro x ⟨⟩; exact binds
  goesOn := by rintro x ⟨⟩; exact pauses

structure Terminator (t : Token) : Prop where
  operator : t.kind ≠ .operator
  punctuation : t.kind ≠ .punctuation

variable {rest : List (Connective v × Leaf)} {last : Token} {behind : List Token}

theorem links_append (ends : Terminator last) (rest : List (Connective v × Leaf))
    (behind : List Token) :
    ∃ t ts, links rest ++ last :: behind = t :: ts ∧ t.kind ≠ .punctuation ∧
      (t.kind = .operator → v.knows t.value = true) := by
  cases rest with
  | nil => exact ⟨last, behind, rfl, ends.punctuation, fun h => absurd h ends.operator⟩
  | cons link rest =>
    refine ⟨link.1.token, _, rfl, by rw [link.1.isOperator]; decide, fun _ => ?_⟩
    rw [Vocabulary.knows, link.1.registered, Option.isSome_some, Bool.or_true]

/-- A reader of inner expressions climbs over fewer operators than `bound`. -/
def SelfClimbs (self : Int → Parse Node) (bound : Nat) (last : Token) (behind : List Token) : Prop :=
  ∀ (k : Int) (a : Leaf) (rest : List (Connective v × Leaf)), rest.length < bound →
    (∀ x ∈ rest, x.1.Fits) → ∃ tree left,
      Reads (self k) (a.token :: (links rest ++ last :: behind)) tree.toNode
        (links left ++ last :: behind) ∧ Climbs k a rest tree left ∧ Pauses k left

section Loop

variable {k : Int} {fuel : Nat} {n : Node}

theorem reads_operators_of_ends (ends : Terminator last) :
    Reads (operators v self k (fuel + 1) n) (last :: behind) n (last :: behind) := by
  refine reads_current.bind ?_
  dsimp only
  rw [if_neg (by rw [beq_iff_eq]; exact ends.operator)]
  exact reads_pure n

theorem reads_operators_of_lt {o : Connective v} (loose : o.operator.precedence < k) :
    Reads (operators v self k (fuel + 1) n) (o.token :: ts) n (o.token :: ts) := by
  refine reads_current.bind ?_
  dsimp only
  rw [if_pos (by rw [o.isOperator]; rfl), o.registered]
  dsimp only
  rw [if_pos loose]
  exact reads_pure n

theorem reads_operators_of_le {o : Connective v} (binds : ¬o.operator.precedence < k)
    {mid left : List Token} {r n' : Node}
    (right : Reads (self o.operator.rightPrecedence) ts r mid)
    (rest : Reads (operators v self k fuel (.plain o.kind o.token.line [n, r])) mid n' left) :
    Reads (operators v self k (fuel + 1) n) (o.token :: ts) n' left := by
  refine reads_current.bind ?_
  dsimp only
  rw [if_pos (by rw [o.isOperator]; rfl), o.registered]
  dsimp only
  rw [if_neg binds]
  refine (reads_next (by rw [o.isOperator]; decide)).bind (Reads.bind ?_ rest)
  rw [rightSide, o.operand]
  exact right.bind (reads_pure _)

end Loop

theorem reads_operators {bound : Nat} (ends : Terminator last)
    (inner : SelfClimbs (v := v) self bound last behind) (fuel : Nat) (h : Climbs k a all tree rest)
    (fits : ∀ x ∈ rest, x.1.Fits) (enough : rest.length < fuel) (small : rest.length ≤ bound) :
    ∃ tree' left, Reads (operators v self k fuel tree.toNode)
      (links rest ++ last :: behind) tree'.toNode (links left ++ last :: behind) ∧
      Climbs k a all tree' left ∧ Pauses k left := by
  induction fuel generalizing rest tree with
  | zero => exact absurd enough (Nat.not_lt_zero _)
  | succ fuel loop =>
    cases rest with
    | nil => exact ⟨tree, [], reads_operators_of_ends ends, h, by simp [Pauses]⟩
    | cons link rest =>
      obtain ⟨o, b⟩ := link
      obtain ⟨fitsHere, fits⟩ := forall_mem_cons.1 fits
      rw [length_cons] at enough small
      by_cases binds : o.precedence < k
      · exact ⟨tree, (o, b) :: rest, reads_operators_of_lt binds, h, by rintro x ⟨⟩; exact binds⟩
      · obtain ⟨right, left, reads, hr, pauses⟩ := inner o.reach b rest small fits
        rw [← fitsHere.rightPrecedence] at reads
        have taken : left.Sublist rest := hr.rest ▸ sublist_append_right _ _
        have fewer := taken.length_le
        obtain ⟨tree', left', done, h', pauses'⟩ := loop (h.node (Int.not_lt.1 binds) hr pauses)
          (fun x hx => fits x (taken.subset hx)) (by omega) (by omega)
        exact ⟨tree', left', reads_operators_of_le binds reads done, h', pauses'⟩

/-! ## Expressions -/

theorem length_le_links (rest : List (Connective v × Leaf)) : rest.length ≤ (links rest).length := by
  induction rest with
  | nil => exact Nat.le_refl _
  | cons link rest ih =>
    show rest.length + 1 ≤ (links rest).length + 1 + 1
    omega

theorem reads_conditionals (other : t.kind ≠ .punctuation) (fuel : Nat) (n : Node) :
    Reads (conditionals self (fuel + 1) n) (t :: ts) n (t :: ts) :=
  (reads_nextIf_mark other).bind (reads_pure n)

theorem reads_expressionStep {n : Node} (ends : Terminator last)
    (taken : Reads (operators v self k (links rest ++ last :: behind).length (Tree.leaf (v := v)
      a).toNode) (links rest ++ last :: behind) n (links left ++ last :: behind)) :
    Reads (expressionStep v self k) (a.token :: (links rest ++ last :: behind)) n
      (links left ++ last :: behind) := by
  have first : Reads (operand v self) (a.token :: (links rest ++ last :: behind))
      (Tree.leaf (v := v) a).toNode (links rest ++ last :: behind) := by
    obtain ⟨t, ts, same, other, -⟩ := links_append ends rest behind
    rw [same]
    exact reads_operand a other
  refine first.bind (reads_remaining.bind (taken.bind ?_))
  obtain ⟨t, ts, same, other, known⟩ := links_append ends left behind
  have supported : ¬(t.kind == .operator && t.value != "=" && !v.knows t.value) = true := by
    intro h
    rw [Bool.and_eq_true_iff, Bool.and_eq_true_iff] at h
    rw [known (eq_of_beq h.1.1)] at h
    exact absurd h.2 (by decide)
  rw [same]
  refine reads_current.bind ?_
  rw [if_neg supported]
  by_cases zero : (k == 0) = true
  · rw [if_pos zero]
    exact reads_remaining.bind (reads_conditionals other _ n)
  · rw [if_neg zero]
    exact reads_pure n

theorem selfClimbs_nested (ends : Terminator last) (behind : List Token) (depth : Nat) :
    SelfClimbs (v := v) (nested v depth) depth last behind := by
  induction depth with
  | zero => exact fun k a rest small => absurd small (Nat.not_lt_zero _)
  | succ depth ih =>
    intro k a rest small fits
    have enough : rest.length < (links rest ++ last :: behind).length := by
      have := length_le_links rest
      rw [length_append, length_cons]
      omega
    obtain ⟨tree, left, reads, h, pauses⟩ :=
      reads_operators ends ih _ (.leaf k a rest) fits enough (Nat.lt_succ_iff.1 small)
    exact ⟨tree, left, reads_expressionStep ends reads, h, pauses⟩

theorem Climbs.left_eq_nil (h : Climbs 0 a rest tree left) (fits : ∀ x ∈ rest, x.1.Fits)
    (pauses : Pauses 0 left) : left = [] := by
  cases left with
  | nil => rfl
  | cons link left =>
    have loose := pauses link rfl
    have binds := (fits link (h.rest ▸ mem_append_right _ mem_cons_self)).1
    omega

/-- Reading a chain of operands and binary operators gives the one grouping of it and stops on the
token that ends the chain. -/
theorem expression_reads_grouped (chain : Chain v) (fits : ∀ link ∈ chain.rest, link.1.Fits)
    (ends : Terminator last) {s : ParseState}
    (ahead : s.stream.ahead = chain.tokens ++ last :: behind) :
    ∃ (tree : Tree v) (s' : ParseState), expression v 0 s = .ok (tree.toNode, s') ∧
      s'.stream.ahead = last :: behind ∧ tree.chain = chain ∧ tree.Grouped ∧
      ∀ other : Tree v, other.chain = chain → other.Grouped → other = tree := by
  have short : chain.rest.length < (chain.tokens ++ last :: behind).length + 1 := by
    have := length_le_links chain.rest
    rw [Chain.tokens, cons_append, length_cons, length_append]
    omega
  obtain ⟨tree, left, reads, h, pauses⟩ :=
    selfClimbs_nested ends behind _ 0 chain.first chain.rest short fits
  obtain rfl := h.left_eq_nil fits pauses
  obtain ⟨s', done, stopped⟩ := (reads_remaining.bind reads : Reads (expression v 0) _ _ _) s ahead
  have same : tree.chain = chain := Chain.ext h.first (by rw [← h.rest, append_nil])
  exact ⟨tree, s', done, stopped, same, h.grouped,
    fun other chain' grouped => Tree.eq_of_chain h.grouped grouped (chain'.trans same.symm)⟩

end Climbing

/-! ## Two operators that bind equally tightly -/

/-- Two operators of one precedence, of which one groups to the left and one to the right. -/
def arrows : Vocabulary where
  unary := []
  binary := [("<-", ⟨1, .left, .operand .sub⟩), ("->", ⟨1, .right, .operand .power⟩)]
  filters := []
  functions := []
  tests := []

def leftArrow : Connective arrows where
  token := ⟨.operator, "<-", 1⟩
  operator := ⟨1, .left, .operand .sub⟩
  kind := .sub
  isOperator := rfl
  registered := rfl
  operand := rfl

def rightArrow : Connective arrows where
  token := ⟨.operator, "->", 1⟩
  operator := ⟨1, .right, .operand .power⟩
  kind := .power
  isOperator := rfl
  registered := rfl
  operand := rfl

def Leaf.ofName (name : Variable) : Leaf := ⟨⟨.name, name.1, 1⟩, rfl, reserved?_eq_none name⟩

/-- The grouping `(p <- q) -> (r <- s)`. -/
def arrowTree : Tree arrows :=
  .node (.node (.leaf (.ofName (.small "p" (by decide) (by decide)))) leftArrow
      (.leaf (.ofName (.small "q" (by decide) (by decide)))))
    rightArrow
    (.node (.leaf (.ofName (.small "r" (by decide) (by decide)))) leftArrow
      (.leaf (.ofName (.small "s" (by decide) (by decide)))))

/-- A parse that stands before `p <- q -> r <- s`. -/
def arrowState : ParseState where
  stream := .ofTokens (arrowTree.chain.tokens ++
    [(⟨.printEnd, "", 1⟩ : Token), ⟨.endOfTemplate, "", 1⟩]).toArray "page"
  blocks := []
  openBlocks := []
  parent := none

theorem expression_reads_grouped_arrows :
    (∀ link ∈ arrowTree.chain.rest, link.1.Fits) ∧ arrowTree.Grouped ∧
    ∃ s', expression arrows 0 arrowState = .ok (arrowTree.toNode, s') ∧
      s'.stream.current = ⟨.printEnd, "", 1⟩ := by
  have fits : ∀ link ∈ arrowTree.chain.rest, link.1.Fits := by
    simp [arrowTree, Tree.chain, Connective.Fits, Connective.precedence, leftArrow, rightArrow]
  have grouped : arrowTree.Grouped := by
    simp [arrowTree, Tree.Grouped, Tree.root?, Connective.Admits, Connective.Extends,
      Connective.precedence, leftArrow, rightArrow]
  have before : arrowState.stream.ahead =
      arrowTree.chain.tokens ++ [⟨.printEnd, "", 1⟩, ⟨.endOfTemplate, "", 1⟩] := by decide
  obtain ⟨tree, s', read, stopped, -, -, unique⟩ :=
    expression_reads_grouped arrowTree.chain fits ⟨by decide, by decide⟩ before
  rw [← unique arrowTree rfl grouped] at read
  exact ⟨fits, grouped, s', read, current_of_ahead stopped⟩

end Parse
end Stencil
