import Stencil.Proofs.Sorts

/-!
# Expressions are read by walking over their tokens

Whatever reads an expression changes nothing but the position in the tokens, and moves that only
over tokens of the kinds expressions consist of: it never passes a delimiter, text or the end.
`Walk` is this relation between two states of a parse.

What has been read is put together from tokens and from what was read before; `Scene.Formed` lists
the ways. `Scene.Walks Q` says of a step that it walks and comes to something with `Q`, or complains
about the line of a token. Steps that look at the current token before they pass it walk only
because of what they have seen, so the rules are about `Scene.GoesOn`, with what is known of the
current token, and with a flag for steps that pass a token at least.

A step may also depend on how many tokens there are ahead, at most: a loop that goes round as often as
there are tokens never gets stuck, because it passes one each time (`Scene.GoesOn.past`). Every reader
of expressions walks if the reader of the inner ones does where there is one token less, so
`Scene.walks_expression` is an induction on the depth of nesting.
-/

namespace Stencil

open List
open Token (Kind.isInner)

/-! ## The tokens ahead -/

namespace TokenStream

def ahead (s : TokenStream) : List Token := s.tokens.toList.drop s.position

theorem ahead_eq_cons (s : TokenStream) :
    s.ahead = s.current :: s.tokens.toList.drop (s.position + 1) := by
  have h : s.position < s.tokens.toList.length := by simpa using s.inBounds
  rw [ahead, drop_eq_getElem_cons h]
  rfl

theorem ahead_advance {s : TokenStream} (h : s.current.kind ≠ .endOfTemplate) :
    s.ahead = s.current :: s.advance.ahead := by
  rw [ahead_eq_cons, ahead, tokens_advance, position_advance h]

theorem remaining_eq (s : TokenStream) : s.remaining = s.ahead.length := by
  simp [remaining, ahead]

end TokenStream

/-! ## Walks -/

def ParseState.pass (s : ParseState) : ParseState := { s with stream := s.stream.advance }

/-- Some tokens of expressions are passed, and nothing else happens. -/
inductive Walk : ParseState → ParseState → Prop
  | refl (s : ParseState) : Walk s s
  | step {s s'} (inner : s.stream.current.kind.isInner = true) (rest : Walk s.pass s') : Walk s s'

theorem Walk.trans {s t u : ParseState} (first : Walk s t) (second : Walk t u) : Walk s u := by
  induction first with
  | refl _ => exact second
  | step inner _ ih => exact .step inner (ih second)

def Stride (s s' : ParseState) : Prop := s.stream.current.kind.isInner = true ∧ Walk s.pass s'

theorem Token.ne_end_of_isInner {t : Token} (h : t.kind.isInner = true) :
    t.kind ≠ .endOfTemplate := by
  intro hk
  simp [hk, Kind.isInner] at h

theorem Walk.ahead {s s' : ParseState} (h : Walk s s') :
    ∃ passed, s.stream.ahead = passed ++ s'.stream.ahead ∧ ∀ t ∈ passed, t.kind.isInner = true := by
  induction h with
  | refl s => exact ⟨[], rfl, by simp⟩
  | @step s s' inner _ ih =>
    obtain ⟨passed, same, all⟩ := ih
    refine ⟨s.stream.current :: passed, ?_, by simpa [inner] using all⟩
    rw [TokenStream.ahead_advance (Token.ne_end_of_isInner inner), cons_append, ← same]
    rfl

theorem Walk.remaining_le {s s' : ParseState} (h : Walk s s') :
    s'.stream.remaining ≤ s.stream.remaining := by
  obtain ⟨passed, same, -⟩ := h.ahead
  rw [TokenStream.remaining_eq, TokenStream.remaining_eq, same, length_append]
  exact Nat.le_add_left _ _

theorem ParseState.remaining_pass {s : ParseState} (h : s.stream.current.kind ≠ .endOfTemplate) :
    s.stream.remaining = s.pass.stream.remaining + 1 := by
  rw [TokenStream.remaining_eq, TokenStream.ahead_advance h, length_cons, ← TokenStream.remaining_eq]
  rfl

theorem Stride.remaining_lt {s s' : ParseState} (h : Stride s s') :
    s'.stream.remaining < s.stream.remaining := by
  have passed := ParseState.remaining_pass (Token.ne_end_of_isInner h.1)
  have further := h.2.remaining_le
  omega

theorem TokenStream.remaining_pos (s : TokenStream) : 0 < s.remaining := Nat.sub_pos_of_lt s.inBounds

theorem Walk.unchanged {s s' : ParseState} (h : Walk s s') :
    s'.blocks = s.blocks ∧ s'.openBlocks = s.openBlocks ∧ s'.parent = s.parent ∧
      s'.stream.tokens = s.stream.tokens ∧ s'.stream.template = s.stream.template := by
  induction h with
  | refl _ => simp
  | step _ _ ih => simpa [ParseState.pass] using ih

/-- A step from a state ended after a walk and with something that has a property, or with a
complaint about a line, which is not about a token that no statement starts with. The flag says
whether a token has been passed. -/
inductive Walked (line : Int → Prop) (long : Bool) {α : Type} (Q : α → Prop) (s : ParseState) :
    Except Failure (α × ParseState) → Prop
  | ok {a s'} (h : Q a) (walk : Walk s s') (far : long = true → Stride s s') :
    Walked line long Q s (.ok (a, s'))
  | error {reason} (other : reason ≠ .misplacedToken) {l : Int} (h : line l) :
    Walked line long Q s (.error (.malformed reason s.stream.template l))

theorem Walked.stride {line : Int → Prop} {long : Bool} {α : Type} {Q : α → Prop} {s s' : ParseState}
    {a : α} (h : Q a) (far : Stride s s') : Walked line long Q s (.ok (a, s')) :=
  .ok h (.step far.1 far.2) fun _ => far

theorem Walked.mono {line : Int → Prop} {long : Bool} {α : Type} {Q R : α → Prop} {s : ParseState}
    {ended : Except Failure (α × ParseState)} (h : Walked line long Q s ended)
    (hQR : ∀ a, Q a → R a) : Walked line long R s ended := by
  cases h with
  | ok h walk far => exact .ok (hQR _ h) walk far
  | error other h => exact .error other h

/-! ## Expressions -/

/-- Where an expression is read: the language, the tokens of the template, and the innermost block
that is open, with whether the template extends another one by then. -/
structure Scene where
  vocabulary : Vocabulary
  tokens : List Token
  block : Option (String × Bool)

/-- The innermost open block, with whether the template extends another one by now. -/
def ParseState.block (s : ParseState) : Option (String × Bool) :=
  s.openBlocks.head?.map fun name => (name, s.parent.isSome)

inductive Scene.Role
  | term
  | argument

namespace Scene

def Line (b : Scene) (l : Int) : Prop := ∃ t ∈ b.tokens, t.line = l

/-- The ways an expression is put together. -/
inductive Formed (b : Scene) : Role → Node → Prop
  | leaf {kind l attrs} (there : b.Line l)
    (complete : (Node.node kind l "" attrs []).complete = true)
    (sort : kind ∈ [.constant, .stringConstant, .ident, .target]) :
    Formed b .term (.node kind l "" attrs [])
  | parent {name l} (there : b.Line l) (inside : b.block = some (name, true)) :
    Formed b .term (.ofCall .parent name l [])
  | array {l ns} (there : b.Line l) (items : ∀ n ∈ ns, Formed b .term n) :
    Formed b .term (.plain .array l ns)
  | hash {l ns} (there : b.Line l) (items : ∀ n ∈ ns, Formed b .term n) (even : ns.length % 2 = 0) :
    Formed b .term (.plain .hash l ns)
  | unary {l word op n} (there : b.Line l) (known : b.vocabulary.unary? word = some op)
    (operand : Formed b .term n) : Formed b .term (.plain op.kind l [n])
  | negation {l n} (there : b.Line l) (operand : Formed b .term n) :
    Formed b .term (.plain .negation l [n])
  | binary {l word op kind n m} (there : b.Line l) (known : b.vocabulary.binary? word = some op)
    (right : op.right = .operand kind) (first : Formed b .term n) (second : Formed b .term m) :
    Formed b .term (.plain kind l [n, m])
  | concat {l n m} (there : b.Line l) (first : Formed b .term n) (second : Formed b .term m) :
    Formed b .term (.plain .concat l [n, m])
  | conditional {l test n m} (there : b.Line l) (asked : Formed b .term test)
    (first : Formed b .term n) (second : Formed b .term m) :
    Formed b .term (.plain .conditional l [test, n, m])
  | blockCall {l n} (there : b.Line l) (name : Formed b .term n) :
    Formed b .term (.plain .blockCall l [n])
  | named {name l n} (there : b.Line l) (value : Formed b .term n) :
    Formed b .argument (.ofCall .namedArgument name l [n])
  | positional {n} (value : Formed b .term n) : Formed b .argument n
  | call {name l l' ns} (there : b.Line l) (there' : b.Line l')
    (known : b.vocabulary.functions.contains name = true) (args : ∀ n ∈ ns, Formed b .argument n) :
    Formed b .term (.ofCall .call name l [.plain .arguments l' ns])
  | filter {name l l' n ns} (there : b.Line l) (there' : b.Line l')
    (known : b.vocabulary.filters.contains name = true) (operand : Formed b .term n)
    (args : ∀ n ∈ ns, Formed b .argument n) :
    Formed b .term (.ofCall .filter name l [n, .plain .arguments l' ns])
  | test {name l l' n ns} (there : b.Line l) (there' : b.Line l')
    (known : b.vocabulary.tests.contains name = true) (operand : Formed b .term n)
    (args : ∀ n ∈ ns, Formed b .argument n) :
    Formed b .term (.ofCall .test name l [n, .plain .arguments l' ns])
  | access {access l l' n m ns} (there : b.Line l) (there' : b.Line l') (object : Formed b .term n)
    (item : Formed b .term m) (args : ∀ n ∈ ns, Formed b .term n) :
    Formed b .term (.ofAccess n m (.plain .arguments l' ns) access l)

abbrev Term (b : Scene) : Node → Prop := b.Formed .term

theorem Formed.line {b : Scene} {role : Role} {n : Node} (h : b.Formed role n) : b.Line n.line := by
  induction h with
  | positional _ ih => exact ih
  | leaf there | parent there | array there | hash there | unary there | negation there | binary there
  | concat there | conditional there | blockCall there | named there | call there | filter there
  | test there | access there => exact there

open Parse

variable {b : Scene} {α β : Type} {p : Token → Prop} {Q : α → Prop} {R : β → Prop}

structure Holds (b : Scene) (s : ParseState) : Prop where
  tokens : s.stream.tokens.toList = b.tokens
  block : s.block = b.block

/-- A step that walks, and passes a token if it has to, where at most `n` tokens are ahead and the
current one has a property. -/
def GoesOn (b : Scene) (n : Nat) (long : Bool) (p : Token → Prop) (Q : α → Prop) (x : Parse α) : Prop :=
  ∀ s, b.Holds s → s.stream.remaining ≤ n → p s.stream.current → Walked b.Line long Q s (x s)

abbrev Goes (b : Scene) (n : Nat) (long : Bool) (Q : α → Prop) (x : Parse α) : Prop :=
  b.GoesOn n long (fun _ => True) Q x

abbrev Walks (b : Scene) (n : Nat) (Q : α → Prop) (x : Parse α) : Prop := b.Goes n false Q x

variable {n : Nat} {s s' : ParseState} {x : Parse α} {a : α} {reason : Malformed} {l : Int} {c : Prop}
  {f : α → Parse β} {rest : Parse β} {t : Token} {kind : Token.Kind} {values : List String}
  {done : List Node} {long : Bool}

theorem Holds.current_mem (hs : b.Holds s) : s.stream.current ∈ b.tokens :=
  hs.tokens ▸ Array.mem_toList_iff.2 (Array.getElem_mem _)

theorem Holds.line (hs : b.Holds s) : b.Line s.stream.current.line :=
  ⟨_, hs.current_mem, rfl⟩

theorem Holds.walk (hs : b.Holds s) (walk : Walk s s') : b.Holds s' := by
  obtain ⟨-, opened, parent, tokens, -⟩ := walk.unchanged
  refine ⟨by rw [tokens, hs.tokens], ?_⟩
  rw [ParseState.block, opened, parent]
  exact hs.block

theorem Holds.pass (hs : b.Holds s) : b.Holds s.pass :=
  ⟨by rw [ParseState.pass, TokenStream.tokens_advance, hs.tokens], hs.block⟩

theorem GoesOn.on (h : b.Goes n long Q x) : b.GoesOn n long p Q x :=
  fun s hs few _ => h s hs few trivial

theorem GoesOn.mono {Q' : α → Prop} (h : b.GoesOn n long p Q x) (hQ : ∀ a, Q a → Q' a) :
    b.GoesOn n long p Q' x :=
  fun s hs few here => (h s hs few here).mono hQ

theorem GoesOn.within {m : Nat} (h : b.GoesOn n long p Q x) (le : m ≤ n) : b.GoesOn m long p Q x :=
  fun s hs few => h s hs (Nat.le_trans few le)

/-- There is always a token ahead. -/
theorem goesOn_zero : b.GoesOn 0 long p Q x :=
  fun s _ few => absurd few (Nat.not_le.2 s.stream.remaining_pos)

theorem walked_of_walk (walk : Walk s s') (far : long = true → Stride s s')
    {ended : Except Failure (β × ParseState)} (h : Walked b.Line false R s' ended) :
    Walked b.Line long R s ended := by
  cases h with
  | ok h further =>
    exact .ok h (walk.trans further) fun is => ⟨(far is).1, (far is).2.trans further⟩
  | error other h =>
    rw [walk.unchanged.2.2.2.2]
    exact .error other h

/-- What follows a step has as many tokens ahead at most. -/
theorem GoesOn.bind {x : Parse α} {f : α → Parse β} (hx : b.GoesOn n long p Q x)
    (hf : ∀ a, Q a → b.Walks n R (f a)) : b.GoesOn n long p R (x >>= f) := by
  intro s hs few here
  have first := hx s hs few here
  show Walked b.Line long R s (x s >>= fun r => f r.1 r.2)
  generalize x s = ended at first
  cases first with
  | error other h => exact .error other h
  | ok h walk far =>
    have fewer := Nat.le_trans walk.remaining_le few
    exact walked_of_walk walk far (hf _ h _ (hs.walk walk) fewer trivial)

/-- What follows a step that passes a token has fewer tokens ahead. -/
theorem GoesOn.past {x : Parse α} {f : α → Parse β} (hx : b.GoesOn (n + 1) true p Q x)
    (hf : ∀ a, Q a → b.Walks n R (f a)) : b.GoesOn (n + 1) long p R (x >>= f) := by
  intro s hs few here
  have first := hx s hs few here
  show Walked b.Line long R s (x s >>= fun r => f r.1 r.2)
  generalize x s = ended at first
  cases first with
  | error other h => exact .error other h
  | ok h walk far =>
    have fewer := Nat.le_of_lt_succ (Nat.lt_of_lt_of_le (far rfl).remaining_lt few)
    exact walked_of_walk walk (fun _ => far rfl) (hf _ h _ (hs.walk walk) fewer trivial)

theorem walks_pure (h : Q a) : b.Walks n Q (pure a : Parse α) :=
  fun s _ _ _ => .ok h (.refl s) fun no => (nomatch no)

theorem walks_fail (other : reason ≠ .misplacedToken) (h : l ≤ 0 ∨ b.Line l) :
    b.Goes n long Q (fail reason l : Parse α) := by
  intro s hs _ _
  unfold fail
  split
  · exact .error other hs.line
  · next known => exact .error other (h.resolve_left known)

theorem GoesOn.ite [Decidable c] {yes no : Parse α} (hyes : c → b.GoesOn n long p Q yes)
    (hno : ¬c → b.GoesOn n long p Q no) : b.GoesOn n long p Q (if c then yes else no) := by
  split
  · next h => exact hyes h
  · next h => exact hno h

theorem GoesOn.unless [Decidable c] (other : reason ≠ .misplacedToken) (h : b.Line l)
    (hrest : ¬c → b.GoesOn n long p R rest) :
    b.GoesOn n long p R (if c then fail reason l >>= f else rest) := by
  have never : b.GoesOn n long p (fun _ : α => False) (fail reason l) := (walks_fail other (.inr h)).on
  exact .ite (fun _ => never.bind fun _ no => no.elim) hrest

theorem GoesOn.optional [Decidable c] (hx : b.GoesOn n false p Q x) (hrest : b.Walks n R rest) :
    b.GoesOn n false p R (if c then x >>= fun _ => rest else rest) :=
  .ite (fun _ => hx.bind fun _ _ => hrest) fun _ => hrest.on

/-! ### Tokens -/

theorem GoesOn.look {f : ParseState → α} {g : α → Parse β}
    (h : ∀ s, p s.stream.current → b.GoesOn n long p R (g (f s))) :
    b.GoesOn n long p R ((fun s => .ok (f s, s) : Parse α) >>= g) :=
  fun s hs few here => h s here s hs few here

theorem GoesOn.remaining {f : Nat → Parse β} (h : ∀ m, m ≤ n → b.GoesOn m long p R (f m)) :
    b.GoesOn n long p R (remaining >>= f) :=
  fun s hs few here => h _ few s hs (Nat.le_refl _) here

theorem GoesOn.get {f : ParseState → Parse β} (h : ∀ s, b.Holds s → b.Walks n R (f s)) :
    b.Walks n R (get >>= f) :=
  fun s hs => h s hs s hs

theorem GoesOn.current {f : Token → Parse β}
    (h : ∀ t, p t → b.Line t.line → b.GoesOn n long (· = t) R (f t)) :
    b.GoesOn n long p R (current >>= f) :=
  fun s hs few here => h _ here hs.line s hs few rfl

theorem walked_of_pass (hs : b.Holds s) (few : s.stream.remaining ≤ n + 1)
    (inner : s.stream.current.kind.isInner = true)
    (passed : x s = .ok (a, s.pass)) (hf : b.Walks n R (f a)) :
    Walked b.Line long R s ((x >>= f) s) := by
  show Walked b.Line long R s (x s >>= fun r => f r.1 r.2)
  rw [passed]
  have fewer : s.pass.stream.remaining ≤ n := by
    have passed := ParseState.remaining_pass (Token.ne_end_of_isInner inner)
    omega
  exact walked_of_walk (.step inner (.refl _)) (fun _ => ⟨inner, .refl _⟩)
    (hf s.pass hs.pass fewer trivial)

theorem walked_of_stay (stays : x s = .ok (a, s)) (hf : Walked b.Line long R s (f a s)) :
    Walked b.Line long R s ((x >>= f) s) := by
  show Walked b.Line long R s (x s >>= fun r => f r.1 r.2)
  rw [stays]
  exact hf

theorem GoesOn.next {f : Token → Parse β} (inner : ∀ t, p t → t.kind.isInner = true)
    (h : ∀ t, p t → b.Line t.line → b.Walks n R (f t)) : b.GoesOn (n + 1) long p R (next >>= f) :=
  fun _ hs few here => walked_of_pass hs few (inner _ here) rfl (h _ here hs.line)

/-- A token is passed, and it does not matter that there are fewer ahead. -/
theorem GoesOn.skip {f : Token → Parse β} (inner : ∀ t, p t → t.kind.isInner = true)
    (h : ∀ t, p t → b.Line t.line → b.Walks n R (f t)) : b.GoesOn n long p R (Parse.next >>= f) :=
  (GoesOn.next inner h).within (Nat.le_succ n)

theorem inner_of_eq (hk : t.kind = kind) (inner : kind.isInner = true) :
    ∀ u, u = t → u.kind.isInner = true := by
  rintro u rfl
  rw [hk, inner]

/-- A token may be passed before it is looked at, if for a delimiter nothing but a complaint comes
of it. -/
theorem walks_next {f : Token → Parse β}
    (inner : ∀ t, t.kind.isInner = true → b.Line t.line → b.Walks n R (f t)) (reason : Malformed)
    (other : reason ≠ .misplacedToken) (h : b.Line l)
    (refused : ∀ t, t.kind.isInner = false → f t = fail reason l) : b.Walks n R (next >>= f) := by
  intro s hs few _
  cases hk : s.stream.current.kind.isInner with
  | true => exact GoesOn.skip (p := fun t => t.kind.isInner = true) (fun _ h => h) inner s hs few hk
  | false =>
    have failed : b.Walks s.pass.stream.remaining R (fail reason l) := walks_fail other (.inr h)
    have ended := failed s.pass hs.pass (Nat.le_refl _) trivial
    show Walked b.Line false R s (f s.stream.current s.pass)
    rw [refused _ hk]
    unfold fail at ended ⊢
    cases ended with
    | error _ h =>
      rw [show s.pass.stream.template = s.stream.template from TokenStream.template_advance _]
      exact .error other h

theorem nextIf_of_test (h : s.stream.test kind values = true) :
    nextIf kind values s = .ok (some s.stream.current, s.pass) := by
  unfold nextIf TokenStream.nextIf?
  rw [if_pos h]
  rfl

theorem nextIf_of_not_test (h : s.stream.test kind values = false) :
    nextIf kind values s = .ok (none, s) := by
  unfold nextIf TokenStream.nextIf?
  rw [if_neg (Bool.eq_false_iff.1 h)]

theorem walks_nextIf (inner : kind.isInner = true) (values : List String) :
    b.Walks n (fun t => ∀ u, t = some u → b.Line u.line) (nextIf kind values) := by
  intro s hs few _
  cases h : s.stream.test kind values with
  | true =>
    rw [nextIf_of_test h]
    refine .stride ?_ ⟨by rw [(Token.test_iff.1 h).1, inner], .refl _⟩
    rintro u ⟨⟩
    exact hs.line
  | false =>
    rw [nextIf_of_not_test h]
    exact .ok (fun _ no => (nomatch no)) (.refl s) fun no => (nomatch no)

/-- An optional token: it is passed, or what follows starts with it. -/
theorem GoesOn.nextIf {f : Option Token → Parse β} (inner : kind.isInner = true)
    (hsome : ∀ t, b.Line t.line → b.Walks n R (f (some t))) (hnone : b.Walks (n + 1) R (f none)) :
    b.Walks (n + 1) R (nextIf kind values >>= f) := by
  intro s hs few _
  cases h : s.stream.test kind values with
  | true =>
    exact walked_of_pass hs few (by rw [(Token.test_iff.1 h).1, inner]) (nextIf_of_test h)
      (hsome _ hs.line)
  | false => exact walked_of_stay (nextIf_of_not_test h) (hnone s hs few trivial)

theorem walks_skipMark (mark : String) : b.Walks n (fun _ => True) (skipMark mark) :=
  (walks_nextIf rfl _).bind fun _ _ => walks_pure trivial

structure Found (b : Scene) (kind : Token.Kind) (t : Token) : Prop where
  there : t ∈ b.tokens
  kind : t.kind = kind

theorem Found.line (h : b.Found kind t) : b.Line t.line :=
  ⟨t, h.there, rfl⟩

theorem walks_expectIn (context : String) (inner : kind.isInner = true) (values : List String) :
    b.Goes n long (b.Found kind) (expectIn context kind values) := by
  intro s hs few _
  unfold expectIn TokenStream.expect
  by_cases h : s.stream.test kind values = true
  · rw [if_pos h]
    have is := (Token.test_iff.1 h).1
    exact .stride ⟨hs.current_mem, is⟩ ⟨by rw [is, inner], .refl _⟩
  · rw [if_neg h]
    have failed : b.Goes n long (b.Found kind) (fail (.unexpected context s.stream.current.kind
        s.stream.current.value kind values.head?) s.stream.current.line) :=
      walks_fail (by simp) (.inr hs.line)
    exact failed s hs few trivial

theorem walks_expect (inner : kind.isInner = true) (values : List String) :
    b.Goes n long (b.Found kind) (expect kind values) :=
  walks_expectIn "" inner values

theorem walks_expectMark (context mark : String) :
    b.Goes n long (fun t => b.Line t.line) (expectMark context mark) :=
  (walks_expectIn context rfl _).mono fun _ => Found.line

/-! ## Expressions -/

def IsArguments (b : Scene) (n : Node) : Prop :=
  ∃ l ns, n = .plain .arguments l ns ∧ b.Line l ∧ ∀ a ∈ ns, b.Formed .argument a

abbrev All (b : Scene) (role : Role) (ns : List Node) : Prop := ∀ n ∈ ns, b.Formed role n

section Lists

variable {role : Role} {n : Node} {ns : List Node}

theorem All.cons (hn : b.Formed role n) (hns : b.All role ns) : b.All role (n :: ns) :=
  forall_mem_cons.2 ⟨hn, hns⟩

theorem All.reverse (h : b.All role ns) : b.All role ns.reverse :=
  fun n hn => h n (mem_reverse.1 hn)

theorem all_nil : b.All role [] := forall_mem_nil _

end Lists

theorem Formed.term_of_kind {n : Node} (h : b.Formed .argument n) (other : n.kind ≠ .namedArgument) :
    b.Term n := by
  cases h with
  | named => exact absurd rfl other
  | positional h => exact h

theorem term_ofString (hl : b.Line l) (value : String) : b.Term (.ofString value l) :=
  .leaf hl rfl (by decide)

theorem term_of_number (ht : b.Line t.line) {n : Node} (h : numberConstant? t = some n) :
    b.Term n := by
  unfold numberConstant? at h
  split at h
  · obtain ⟨f, _, rfl⟩ := Option.map_eq_some_iff.1 h
    exact .leaf ht rfl (by decide)
  · obtain ⟨i, _, rfl⟩ := Option.map_eq_some_iff.1 h
    exact .leaf ht rfl (by decide)

theorem term_of_reserved (hl : b.Line l) {word : String} {value : Attr}
    (h : reserved? word = some value) : b.Term (.ofConstant value l) := by
  unfold reserved? at h
  split at h <;> cases h <;> exact .leaf hl rfl (by decide)

section Nested

variable {self : Int → Parse Node} (hself : ∀ {long} precedence, b.Goes n long b.Term (self precedence))

include hself

theorem walks_argument : b.Goes n long (b.Formed .argument) (argument self) := by
  refine (hself 0).bind fun value hvalue => ?_
  have plain : b.Walks n (b.Formed .argument) (pure value) := walks_pure (.positional hvalue)
  refine .ite (fun _ => (walks_nextIf rfl _).bind fun _ _ => ?_) fun _ => plain
  refine (walks_nextIf rfl _).bind fun _ _ => .ite (fun _ => ?_) fun _ => plain
  exact (hself 0).bind fun named hnamed => walks_pure (.named hvalue.line hnamed)

variable {done : List Node} {l : Int} {left : Node} {fuel : Nat}

theorem walks_argumentList (fits : fuel ≤ n) (hdone : b.All .argument done) :
    b.Walks fuel (b.All .argument) (argumentList self fuel done) := by
  induction fuel generalizing done with
  | zero => exact goesOn_zero
  | succ fuel ih =>
    have ended : b.Walks (fuel + 1) (b.All .argument) (pure done.reverse) := walks_pure hdone.reverse
    refine .look fun _ _ => .ite (fun _ => ended) fun _ => ?_
    refine .optional (walks_expectMark _ _) (.look fun _ _ => .ite (fun _ => ended) fun _ => ?_)
    refine ((walks_argument hself).within fits).past fun _ hvalue => ?_
    exact ih (Nat.le_of_succ_le fits) (.cons hvalue hdone)

theorem walks_arguments : b.Goes n long b.IsArguments (arguments self) := by
  refine (walks_expectMark _ _).bind fun opening hopening => .remaining fun _ fits => ?_
  refine (walks_argumentList hself fits all_nil).bind fun values hvalues => ?_
  exact (walks_expectMark _ _).bind fun _ _ => walks_pure ⟨_, _, rfl, hopening, hvalues⟩

theorem walks_optionalArguments (hl : b.Line l) :
    b.Walks n b.IsArguments (optionalArguments self l) :=
  .look fun _ _ => .ite (fun _ => walks_arguments hself)
    fun _ => walks_pure ⟨_, _, rfl, hl, all_nil⟩

theorem walks_arrayItems (fits : fuel ≤ n) (hdone : b.All .term done) :
    b.Walks fuel (b.All .term) (arrayItems self fuel done) := by
  induction fuel generalizing done with
  | zero => exact goesOn_zero
  | succ fuel ih =>
    have ended : b.Walks (fuel + 1) (b.All .term) (pure done.reverse) := walks_pure hdone.reverse
    have more : b.Walks (fuel + 1) (b.All .term) (do
        if ← atEnd then return done.reverse
        let item ← self 0
        arrayItems self fuel (item :: done)) :=
      .look fun _ _ => .ite (fun _ => ended) fun _ =>
        ((hself 0).within fits).past fun _ hitem => ih (Nat.le_of_succ_le fits) (.cons hitem hdone)
    refine .look fun _ _ => .ite (fun _ => ended) fun _ => ?_
    refine .ite (fun _ => (walks_expectMark _ _).bind fun _ _ => ?_) fun _ => more
    exact .look fun _ _ => .ite (fun _ => ended) fun _ => more

theorem walks_array : b.Goes (n + 1) long b.Term (array self) := by
  refine (walks_expectMark _ _).past fun opening hopening => .remaining fun _ fits => ?_
  refine (walks_arrayItems hself fits all_nil).bind fun items hitems => ?_
  exact (walks_expectMark _ _).bind fun _ _ => walks_pure (.array hopening hitems)

theorem walks_hashKey : b.Walks n b.Term (hashKey self) := by
  refine .current fun t _ ht => ?_
  split
  · exact (walks_fail (by decide) (.inr ht)).on
  · next hk => exact .skip (inner_of_eq hk rfl) fun _ _ _ => walks_pure (term_ofString ht _)
  · next hk => exact .skip (inner_of_eq hk rfl) fun _ _ _ => walks_pure (term_ofString ht _)
  · next hk =>
    refine .skip (inner_of_eq hk rfl) fun _ _ _ => ?_
    split
    · next found => exact walks_pure (term_of_number ht found)
    · exact walks_fail (by simp) (.inr ht)
  · exact .ite (fun _ => (hself 0).on) fun _ => (walks_fail (by simp) (.inr ht)).on

theorem walks_hashItems (fits : fuel ≤ n) (hdone : b.All .term done) (even : done.length % 2 = 0) :
    b.Walks fuel (fun ns => b.All .term ns ∧ ns.length % 2 = 0) (hashItems self fuel done) := by
  have reversed : b.All .term done.reverse ∧ done.reverse.length % 2 = 0 :=
    ⟨hdone.reverse, by rw [length_reverse, even]⟩
  induction fuel generalizing done with
  | zero => exact goesOn_zero
  | succ fuel ih =>
    have ended : b.Walks (fuel + 1) (fun ns => b.All .term ns ∧ ns.length % 2 = 0) (pure done.reverse) :=
      walks_pure reversed
    have more : b.Walks (fuel + 1) (fun ns => b.All .term ns ∧ ns.length % 2 = 0) (do
        let key ← hashKey self
        let _ ← expectMark "A hash key must be followed by a colon (:)" ":"
        let value ← self 0
        hashItems self fuel (value :: key :: done)) := by
      have fits := Nat.le_of_succ_le fits
      refine ((walks_hashKey hself).within ‹_›).bind fun key hkey => (walks_expectMark _ _).past fun _ _ => ?_
      refine ((hself 0).within fits).bind fun value hvalue => ?_
      have longer : (value :: key :: done).length % 2 = 0 := by
        rw [length_cons, length_cons]
        omega
      have terms : b.All .term (value :: key :: done) := .cons hvalue (.cons hkey hdone)
      exact ih fits terms longer ⟨terms.reverse, by rw [length_reverse, longer]⟩
    refine .look fun _ _ => .ite (fun _ => ended) fun _ => ?_
    refine .ite (fun _ => (walks_expectMark _ _).bind fun _ _ => ?_) fun _ => more
    exact .look fun _ _ => .ite (fun _ => ended) fun _ => more

theorem walks_hash : b.Goes (n + 1) long b.Term (Parse.hash self) := by
  refine (walks_expectMark _ _).past fun opening hopening => .remaining fun _ fits => ?_
  refine (walks_hashItems hself fits all_nil rfl).bind fun items hitems => ?_
  exact (walks_expectMark _ _).bind fun _ _ => walks_pure (.hash hopening hitems.1 hitems.2)

/-! ### Strings -/

theorem walks_stringParts (fits : fuel ≤ n + 1) (hdone : b.All .term done) :
    b.Walks fuel (fun ns => b.All .term ns ∧ (done ≠ [] → ns ≠ [])) (stringParts self fuel done) := by
  induction fuel generalizing done with
  | zero => exact goesOn_zero
  | succ fuel ih =>
    have fits := Nat.le_of_succ_le_succ fits
    have more {part : Node} (hpart : b.Term part) : b.Walks fuel
        (fun ns => b.All .term ns ∧ (done ≠ [] → ns ≠ [])) (stringParts self fuel (part :: done)) :=
      (ih (Nat.le_succ_of_le fits) (.cons hpart hdone)).mono fun ns hns =>
        ⟨hns.1, fun _ => hns.2 (cons_ne_nil _ _)⟩
    refine .nextIf rfl (fun t ht => more (term_ofString ht _)) (.nextIf rfl (fun _ _ => ?_) ?_)
    · exact ((hself 0).within fits).bind fun _ hexpr => (walks_expect rfl _).bind fun _ _ => more hexpr
    · exact walks_pure ⟨hdone.reverse, fun some none => some (reverse_eq_nil_iff.1 none)⟩

theorem walks_firstPart (fits : fuel ≤ n) :
    b.GoesOn (fuel + 1) long (fun t => t.kind = .string ∨ t.kind = .interpolationStart)
      (fun ns => b.All .term ns ∧ ns ≠ []) (stringParts self (fuel + 1) []) := by
  have goes {part : Node} (hpart : b.Term part) :
      b.Walks fuel (fun ns => b.All .term ns ∧ ns ≠ []) (stringParts self fuel [part]) :=
    (walks_stringParts hself (Nat.le_succ_of_le fits) (.cons hpart all_nil)).mono fun _ hns =>
      ⟨hns.1, hns.2 (cons_ne_nil _ _)⟩
  have tested (s : ParseState) (kind : Token.Kind) :
      s.stream.test kind [] = (s.stream.current.kind == kind) := Bool.and_true _
  intro s hs few starts
  rcases starts with text | interpolation
  · refine walked_of_pass hs few (by rw [text]; rfl) (nextIf_of_test (by rw [tested, text]; rfl)) ?_
    exact goes (term_ofString hs.line _)
  · refine walked_of_stay (nextIf_of_not_test (by rw [tested, interpolation]; rfl)) ?_
    refine walked_of_pass hs few (by rw [interpolation]; rfl)
      (nextIf_of_test (by rw [tested, interpolation]; rfl)) ?_
    exact ((hself 0).within fits).bind fun _ hexpr => (walks_expect rfl _).bind fun _ _ => goes hexpr

omit hself in
theorem term_concatenation {ns : List Node} (h : b.All .term ns) (some : ns ≠ []) :
    b.Term (concatenation ns) := by
  obtain ⟨first, rest, rfl⟩ := exists_cons_of_ne_nil some
  obtain ⟨hfirst, hrest⟩ := forall_mem_cons.1 h
  unfold concatenation
  clear h some
  induction rest generalizing first with
  | nil => exact hfirst
  | cons n rest ih =>
    obtain ⟨hn, hrest⟩ := forall_mem_cons.1 hrest
    exact ih _ (.concat hn.line hfirst hn) hrest

theorem walks_string (starts : ∀ t, p t → t.kind = .string ∨ t.kind = .interpolationStart) :
    b.GoesOn (n + 1) long p b.Term (string self) := by
  refine .remaining fun m fits => ?_
  cases m with
  | zero => exact goesOn_zero
  | succ fuel =>
    have parts : b.GoesOn (fuel + 1) long p _ (stringParts self (fuel + 1) []) :=
      fun s hs few here =>
        walks_firstPart hself (Nat.le_of_succ_le_succ fits) s hs few (starts _ here)
    exact parts.bind fun _ h => walks_pure (term_concatenation h.1 h.2)

/-! ### Calls -/

theorem walks_functionCall (callee : String) (hl : b.Line l) :
    b.Walks n b.Term (functionCall b.vocabulary self callee l) := by
  refine (walks_arguments hself).bind fun args hargs => ?_
  obtain ⟨l', ns, rfl, hl', hargs⟩ := hargs
  split
  · refine .get fun s hs => ?_
    split
    · exact walks_fail (by decide) (.inr hl)
    · next block rest opened =>
      refine .unless (by decide) hl fun extending => walks_pure (.parent hl ?_)
      have extending := Option.isSome_iff_ne_none.2 fun none => extending (Option.isNone_iff_eq_none.2 none)
      rw [← hs.block, ParseState.block, opened, head?_cons, Option.map_some, extending]
  · split
    · next argument only =>
      refine .unless (by decide) hl fun other => walks_pure (.blockCall hl ?_)
      obtain rfl : ns = [argument] := only
      exact (hargs argument mem_cons_self).term_of_kind (by simpa using other)
    · exact walks_fail (by decide) (.inr hl)
  · exact .unless (by simp) hl fun known => walks_pure (.call hl hl' (by simpa using known) hargs)

theorem walks_filter (inner : ∀ t, p t → t.kind.isInner = true) {operand : Node}
    (hoperand : b.Term operand) : b.GoesOn n long p b.Term (filter b.vocabulary self operand) := by
  refine .skip inner fun _ _ _ => (walks_expect rfl _).bind fun t found => ?_
  have ht := found.line
  refine .unless (by simp) ht fun known => (walks_optionalArguments hself ht).bind fun args hargs => ?_
  obtain ⟨l', ns, rfl, hl', hargs⟩ := hargs
  exact walks_pure (.filter ht hl' (by simpa using known) hoperand hargs)

omit hself in
theorem walks_memberItem {l : Int} (hl : b.Line l) :
    b.Walks n (fun found => b.Term found.1) (memberItem l) := by
  refine walks_next (fun t _ ht => ?_) .memberExpected (by decide) hl fun t ht => ?_
  · split
    · exact walks_pure (term_ofString hl _)
    · exact .ite (fun _ => walks_pure (term_ofString hl _)) fun _ => walks_fail (by decide) (.inr hl)
    · split
      · next found => exact walks_pure (term_of_number ht found)
      · exact walks_fail (by simp) (.inr hl)
    · exact walks_fail (by decide) (.inr hl)
  · cases hk : t.kind <;> first | rfl | simp [hk, Kind.isInner] at ht

theorem walks_subscript (inner : ∀ t, p t → t.kind.isInner = true) {object : Node}
    (hobject : b.Term object) : b.GoesOn n long p b.Term (subscript self object) := by
  refine .skip inner fun t _ ht => ?_
  refine .ite (fun _ => ?_) fun _ => ?_
  · refine (walks_memberItem ht).bind fun found hfound => .look fun _ _ => .ite (fun _ => ?_) fun _ => ?_
    · refine (walks_arguments hself).bind fun args hargs => .unless (by simp) ht fun unnamed => ?_
      obtain ⟨l', ns, rfl, hl', hargs⟩ := hargs
      refine walks_pure (.access ht hl' hobject hfound fun a ha => (hargs a ha).term_of_kind ?_)
      exact fun is => unnamed (any_eq_true.2 ⟨a, ha, beq_iff_eq.2 is⟩)
    · exact walks_pure (.access ht ht hobject hfound all_nil)
  · exact (hself 0).bind fun _ hitem => (walks_expectMark _ _).bind fun _ _ =>
      walks_pure (.access ht ht hobject hitem all_nil)

theorem walks_suffixes (fits : fuel ≤ n) {operand : Node} (hoperand : b.Term operand) :
    b.Walks fuel b.Term (suffixes b.vocabulary self fuel operand) := by
  induction fuel generalizing operand with
  | zero => exact goesOn_zero
  | succ fuel ih =>
    refine .current fun t _ _ => .ite (fun mark => ?_) fun _ => (walks_pure hoperand).on
    have inner : ∀ u, u = t → u.kind.isInner = true := inner_of_eq (eq_of_beq mark) rfl
    have more {result : Node} (h : b.Term result) := ih (Nat.le_of_succ_le fits) h
    refine .ite (fun _ => ?_) fun _ => .ite (fun _ => ?_) fun _ => (walks_pure hoperand).on
    · exact ((walks_subscript hself inner hoperand).within fits).past fun _ h => more h
    · exact ((walks_filter hself inner hoperand).within fits).past fun _ h => more h

theorem walks_withSuffixes {operand : Node} (hoperand : b.Term operand) :
    b.Walks n b.Term (withSuffixes b.vocabulary self operand) :=
  .remaining fun _ fits => walks_suffixes hself fits hoperand

/-! ### Operands and operators -/

omit hself in
theorem walks_unexpected {t : Token} (ht : b.Line t.line) :
    b.GoesOn n long p b.Term (unexpected t : Parse Node) :=
  (walks_fail (by simp) (.inr ht)).on

theorem walks_simple : b.Goes (n + 1) long b.Term (simple b.vocabulary self) := by
  refine .current fun t _ ht => ?_
  split
  · next hk =>
    refine .next (inner_of_eq hk rfl) fun _ _ _ => ?_
    split
    · next found => exact walks_pure (term_of_reserved ht found)
    · exact .look fun _ _ => .ite (fun _ => walks_functionCall hself _ ht)
        fun _ => walks_pure (.leaf ht rfl (by decide))
  · next hk =>
    refine .next (inner_of_eq hk rfl) fun _ _ _ => ?_
    split
    · next found => exact walks_pure (term_of_number ht found)
    · exact walks_fail (by simp) (.inr ht)
  · next hk => exact walks_string hself fun u same => .inl (same ▸ hk)
  · next hk => exact walks_string hself fun u same => .inr (same ▸ hk)
  · exact .ite (fun _ => (walks_array hself).on) fun _ =>
      .ite (fun _ => (walks_hash hself).on) fun _ => walks_unexpected ht
  · exact .unless (by simp) ht fun _ => walks_unexpected ht
  · exact walks_unexpected ht

theorem walks_operand : b.Goes (n + 1) long b.Term (operand b.vocabulary self) := by
  refine .current fun t _ ht => ?_
  dsimp only
  split
  · next op found =>
    split at found
    · next isOperator =>
      refine .next (inner_of_eq (eq_of_beq isOperator) rfl) fun _ _ _ => ?_
      exact (hself _).bind fun _ hinner => walks_withSuffixes hself (.unary ht found hinner)
    · cases found
  · refine .ite (fun mark => ?_) fun _ => ?_
    · refine .next (inner_of_eq (Token.test_iff.1 mark).1 rfl) fun _ _ _ => ?_
      exact (hself 0).bind fun _ hinner => (walks_expectMark _ _).bind fun _ _ =>
        walks_withSuffixes hself hinner
    · exact (walks_simple hself).on.past fun _ h => walks_withSuffixes hself h

theorem walks_testCall (hleft : b.Term left) (negated : Bool) (hl : b.Line l) :
    b.Walks n b.Term (testCall b.vocabulary self left negated l) := by
  refine (walks_expect rfl _).bind fun t found => .current fun following _ _ => ?_
  have ht := found.line
  have checked (name : String) : b.Walks n b.Term (do
      if !b.vocabulary.tests.contains name then fail (.unknownTest name) t.line
      let args ← optionalArguments self t.line
      let node := Node.ofCall .test name l [left, args]
      return if negated then .plain .negation l [node] else node) := by
    refine .unless (by simp) ht fun known => (walks_optionalArguments hself ht).bind fun args hargs => ?_
    obtain ⟨l', ns, rfl, hl', hargs⟩ := hargs
    have tested : b.Term (.ofCall .test name l [left, .plain .arguments l' ns]) :=
      .test hl hl' (by simpa using known) hleft hargs
    refine walks_pure ?_
    split
    · exact .negation hl tested
    · exact tested
  refine .ite (fun two => ?_) fun _ => (checked _).on
  have isName : following.kind = .name := by
    simpa using (Bool.and_eq_true_iff.1 two).1
  exact .skip (inner_of_eq isName rfl) fun _ _ _ => checked _

theorem walks_rightSide {word : String} {op : BinaryOperator}
    (known : b.vocabulary.binary? word = some op) (hleft : b.Term left) (hl : b.Line l) :
    b.Walks n b.Term (rightSide b.vocabulary self op left l) := by
  unfold rightSide
  split
  · exact walks_testCall hself hleft _ hl
  · next kind right =>
    exact (hself _).bind fun _ h => walks_pure (.binary hl known right hleft h)

theorem walks_operators (precedence : Int) (fits : fuel ≤ n) (hleft : b.Term left) :
    b.Walks fuel b.Term (operators b.vocabulary self precedence fuel left) := by
  induction fuel generalizing left with
  | zero => exact goesOn_zero
  | succ fuel ih =>
    refine .current fun t _ ht => ?_
    dsimp only
    split
    · exact (walks_pure hleft).on
    · next op found =>
      split at found
      · next isOperator =>
        refine .ite (fun _ => (walks_pure hleft).on) fun _ => ?_
        refine .next (inner_of_eq (eq_of_beq isOperator) rfl) fun _ _ _ => ?_
        have fits := Nat.le_of_succ_le fits
        exact ((walks_rightSide hself found hleft ht).within fits).bind fun _ h => ih fits h
      · cases found

theorem walks_conditionals (fits : fuel ≤ n) {test : Node} (htest : b.Term test) :
    b.Walks fuel b.Term (conditionals self fuel test) := by
  induction fuel generalizing test with
  | zero => exact goesOn_zero
  | succ fuel ih =>
    have fits := Nat.le_of_succ_le fits
    have inner : b.Walks fuel b.Term (self 0) := (hself 0).within fits
    refine .nextIf rfl (fun t ht => ?_) (walks_pure htest)
    refine (walks_skipMark _).bind fun _ _ => .ite (fun _ => ?_) fun _ => ?_
    · exact inner.bind fun _ h => ih fits (.conditional ht htest htest h)
    · refine inner.bind fun value hvalue => (walks_skipMark _).bind fun _ _ => ?_
      refine .ite (fun _ => inner.bind fun _ h => ih fits (.conditional ht htest hvalue h))
        fun _ => ?_
      exact (walks_pure (term_ofString ht _)).bind fun _ h => ih fits (.conditional ht htest hvalue h)

theorem walks_expressionStep (precedence : Int) :
    b.Goes (n + 1) long b.Term (expressionStep b.vocabulary self precedence) := by
  refine (walks_operand hself).past fun first hfirst => .remaining fun m fits => ?_
  refine (walks_operators hself _ fits hfirst).bind fun expr hexpr => .current fun t _ ht => ?_
  have rest : b.Walks m b.Term (if precedence == 0 then do conditionals self (← remaining) expr
      else return expr) :=
    .ite (fun _ => .remaining fun _ fewer =>
      walks_conditionals hself (Nat.le_trans fewer fits) hexpr) fun _ => walks_pure hexpr
  exact .unless (by simp) ht fun _ => rest.on

end Nested

theorem walks_nested (b : Scene) (depth : Nat) (precedence : Int) :
    b.Goes depth long b.Term (nested b.vocabulary depth precedence) := by
  induction depth generalizing precedence long with
  | zero => exact goesOn_zero
  | succ depth ih => exact walks_expressionStep (fun precedence => ih precedence) precedence

/-- **Reading an expression is a walk over its tokens**, and what may be said of expressions may be
said of what has been read. -/
theorem walks_expression (b : Scene) (precedence : Int) :
    b.Goes n long b.Term (expression b.vocabulary precedence) :=
  .remaining fun m _ => (b.walks_nested (m + 1) precedence).within (Nat.le_succ m)

/-! ## Targets and lists of expressions -/

structure AreTargets (b : Scene) (ns : List Node) : Prop where
  all : ∀ n ∈ ns, b.Term n ∧ n.kind = .target
  some : ns ≠ []

theorem AreTargets.reverse {ns : List Node} (h : b.AreTargets ns) : b.AreTargets ns.reverse where
  all n hn := h.all n (mem_reverse.1 hn)
  some none := h.some (reverse_eq_nil_iff.1 none)

theorem walks_target (hdone : ∀ n ∈ done, b.Term n ∧ n.kind = .target) {fuel : Nat}
    (rest : ∀ t, b.AreTargets (t :: done) → b.Walks fuel b.AreTargets (targetList fuel (t :: done))) :
    b.Goes (fuel + 1) long b.AreTargets (targetList (fuel + 1) done) := by
  refine .current fun t _ ht => ?_
  have target : b.Term (.ofTarget t.value t.line) := .leaf ht rfl (by decide)
  have more : b.AreTargets (.ofTarget t.value t.line :: done) :=
    ⟨forall_mem_cons.2 ⟨⟨target, rfl⟩, hdone⟩, cons_ne_nil _ _⟩
  have checked : b.Walks fuel b.AreTargets (do
      if (reserved? t.value).isSome then fail (.assignment t.value) t.line
      let done := Node.ofTarget t.value t.line :: done
      if ← skipMark "," then targetList fuel done else return done.reverse) :=
    .unless (by simp) ht fun _ => (walks_skipMark _).bind fun _ _ =>
      .ite (fun _ => rest _ more) fun _ => walks_pure more.reverse
  refine .ite (fun word => ?_) fun _ => (walks_expectIn _ rfl _).on.past fun _ _ => checked
  have isOperator : t.kind = .operator := by simpa using (Bool.and_eq_true_iff.1 word).1
  exact .next (inner_of_eq isOperator rfl) fun _ _ _ => checked

theorem walks_targetList (fuel : Nat) (h : b.AreTargets done) :
    b.Walks fuel b.AreTargets (targetList fuel done) := by
  induction fuel generalizing done with
  | zero => exact goesOn_zero
  | succ fuel ih => exact walks_target h.all fun _ => ih

theorem walks_targets (b : Scene) : b.Goes n long b.AreTargets targets :=
  .remaining fun m _ => (walks_target (forall_mem_nil _) fun _ => walks_targetList m).within
    (Nat.le_succ m)

theorem walks_expressionList {self : Int → Parse Node}
    (hself : ∀ {long} precedence, b.Goes n long b.Term (self precedence)) {m fuel : Nat}
    (fits : m ≤ n) (enough : m ≤ fuel) (hdone : b.All .term done) :
    b.Walks m (b.All .term) (expressionList self fuel done) := by
  induction fuel generalizing m done with
  | zero => exact goesOn_zero.within enough
  | succ fuel ih =>
    cases m with
    | zero => exact goesOn_zero
    | succ m =>
      refine ((hself 0).within fits).past fun expr hexpr => (walks_skipMark _).bind fun _ _ => ?_
      refine .ite (fun _ => ?_) fun _ => walks_pure (All.cons hexpr hdone).reverse
      exact ih (Nat.le_of_succ_le fits) (Nat.le_of_succ_le_succ enough) (.cons hexpr hdone)

end Scene
end Stencil
