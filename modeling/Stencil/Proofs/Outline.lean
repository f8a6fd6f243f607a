import Mathlib.Data.List.Infix
import Mathlib.Data.List.Perm.Basic
import Stencil.Proofs.Walking

/-!
# Statements are put together from statements

A parse reads text, prints and tags, and puts statements together from what it has read.
`Scene.Composed` lists the ways a statement is made of others, and `Scene.Code` says of a tree that
it is made in these ways, all the way down.

What may be said of a parse on its way is an `Outline`: a property of where it stands, of the
statements it has in hand, and of its state. It has to survive each thing a parse can do: passing a
token, putting statements together, opening and closing a block, setting a parent. Then it holds at
the end of every template that can be read, and a complaint is about the line of a token
(`Outline.tree_ends`). The six tags are gone through once, here.
-/

namespace Stencil

open Parse List Scene Node

/-! ## Statements -/

/-- A token is the name of a tag: it stands right behind an opening delimiter. -/
structure Token.Heads (tokens : List Token) (word : String) (t : Token) : Prop where
  there : ∃ start : Token, start.kind = .blockStart ∧ [start, t] <:+: tokens
  kind : t.kind = .name
  word : t.value = word

theorem Token.Heads.mem {tokens : List Token} {word : String} {t : Token} (h : t.Heads tokens word) :
    t ∈ tokens := by
  obtain ⟨start, -, there⟩ := h.there
  exact there.subset (mem_cons_of_mem _ mem_cons_self)

/-- What an else body adds to the statements of a tag. -/
inductive Node.Else : Node → List Node → Prop
  | none : Else .absent []
  | some (n : Node) : Else n [n]

namespace Scene

/-- The ways a statement is made of other statements. -/
inductive Composed (b : Scene) : Node → List Node → Prop
  | text {t : Token} (there : t ∈ b.tokens) : Composed b (.ofText t.value t.line) []
  | print {t : Token} {e : Node}
    (site : t ∈ b.tokens ∧ t.kind = .printStart ∨ t.Heads b.tokens "block") (shown : b.Term e) :
    Composed b (.ofPrint e t.line) []
  | loop {t : Token} {key value sequence condition body otherwise : Node} {others : List Node}
    (site : t.Heads b.tokens "for") (targets : b.AreTargets [key, value]) (items : b.Term sequence)
    (asked : condition = .absent ∨ b.Term condition) (without : otherwise.Else others) :
    Composed b (loopNode t.line key value sequence condition body otherwise) (body :: others)
  | branch {t : Token} {pairs : List (Node × Node)} {otherwise : Node} {others : List Node}
    (site : t.Heads b.tokens "if") (some : pairs ≠ []) (asked : ∀ p ∈ pairs, b.Term p.1)
    (without : otherwise.Else others) :
    Composed b (.plain .branch t.line [.ofBody (inTurn pairs) t.line, otherwise])
      (pairs.map Prod.snd ++ others)
  | assign {t : Token} {names values : List Node} (site : t.Heads b.tokens "set")
    (targets : b.AreTargets names) (assigned : b.All .term values)
    (same : names.length = values.length) :
    Composed b (.node .assign t.line "" [("capture", .bool false)]
      [.ofBody names t.line, .ofBody values t.line]) []
  | capture {t : Token} {name body : Node} (site : t.Heads b.tokens "set")
    (target : b.AreTargets [name]) :
    Composed b (.node .assign t.line "" [("capture", .bool true)]
      [.ofBody [name] t.line, .ofBody [body] t.line]) [body]
  | inclusion {t : Token} {template bindings : Node} {only optional : Bool}
    (site : t.Heads b.tokens "include") (named : b.Term template)
    (given : bindings = .absent ∨ b.Term bindings) :
    Composed b (.node .inclusion t.line "" [("only", .bool only), ("ignore_missing", .bool optional)]
      [template, bindings]) []
  | row {ns : List Node} {l : Int} (there : b.Line l ∨ l = 1) : Composed b (.ofBody ns l) ns
  | tagged {n : Node} (word : String) : Composed b (n.withTag word) [n]

inductive Code (b : Scene) : Node → Prop
  | composed {n : Node} {ms : List Node} (h : b.Composed n ms) (parts : ∀ m ∈ ms, Code b m) : Code b n
  | reference {t : Token} (site : t.Heads b.tokens "block") (name : String) :
    Code b (.leaf .blockReference t.line "name" name)

variable {b : Scene} {n : Node}

theorem Code.joined {ns : List Node} (h : ∀ n ∈ ns, b.Code n) {l : Int} (there : b.Line l ∨ l = 1) :
    b.Code (joined ns l) := by
  unfold Parse.joined
  split
  · exact h _ mem_cons_self
  · exact .composed (.row there) h

end Scene

@[simp] theorem Node.kind_withTag (n : Node) (word : String) : (n.withTag word).kind = n.kind := by
  cases n <;> rfl

@[simp] theorem Node.children_withTag (n : Node) (word : String) :
    (n.withTag word).children = n.children := by
  cases n <;> rfl

@[simp] theorem Node.line_withTag (n : Node) (word : String) : (n.withTag word).line = n.line := by
  cases n <;> rfl

namespace Scene

variable {b : Scene} {n : Node}

theorem Code.line_of_text (h : b.Code n) (kind : n.kind = .text) : b.Line n.line := by
  induction h with
  | reference => cases kind
  | composed how _ ih =>
    cases how with
    | text there => exact ⟨_, there, rfl⟩
    | tagged word =>
      rw [line_withTag]
      exact ih _ mem_cons_self (kind_withTag _ word ▸ kind)
    | print | loop | branch | assign | capture | inclusion | row => cases kind

theorem Code.row (h : b.Code n) (kind : n.kind = .body) :
    (b.Line n.line ∨ n.line = 1) ∧ ∀ c ∈ n.children, b.Code c := by
  induction h with
  | reference => cases kind
  | composed how parts ih =>
    cases how with
    | row there => exact ⟨there, parts⟩
    | tagged word =>
      rw [children_withTag, line_withTag]
      exact ih _ mem_cons_self (kind_withTag _ word ▸ kind)
    | text | print | loop | branch | assign | capture | inclusion => cases kind

end Scene

/-! ## Outlines -/

/-- Where a parse stands: before a statement, right behind the opening delimiter of a tag, or in a
print or a tag that a token of some kind ends. -/
inductive Spot
  | outside
  | start
  | inside (closer : Token.Kind)

/-- What is still due: nothing, that a block is closed, or that a parent is set. -/
inductive Due
  | nothing
  | block
  | parent
  deriving DecidableEq

def Due.of (word : String) : Due := if word = "endblock" then .block else .nothing

namespace ParseState

def opening (s : ParseState) (name : String) (line : Int) : ParseState :=
  { s with blocks := s.blocks ++ [⟨name, line, .absent⟩], openBlocks := name :: s.openBlocks }

def closing (s : ParseState) (name : String) (body : Node) : ParseState :=
  { s with
    blocks := s.blocks.map fun b => if b.name == name then { b with body } else b
    openBlocks := s.openBlocks.tail }

end ParseState

/-- The ways a token is passed, by where the parse stands and what is due, before and after. A block
that has been opened is due to be closed, unless its tag ends right behind its name. -/
inductive Passes (s : ParseState) : Spot → Due → Spot → Due → Prop
  | text {d : Due} (kind : s.stream.current.kind = .text) : Passes s .outside d .outside d
  | print {d : Due} (kind : s.stream.current.kind = .printStart) :
    Passes s .outside d (.inside .printEnd) d
  | tag {d : Due} (kind : s.stream.current.kind = .blockStart) : Passes s .outside d .start d
  | head (kind : s.stream.current.kind = .name) (word : s.stream.current.value ≠ "extends") :
    Passes s .start .nothing (.inside .blockEnd) (.of s.stream.current.value)
  | headExtends (kind : s.stream.current.kind = .name) (word : s.stream.current.value = "extends")
    (outer : s.openBlocks = []) (single : s.parent = none) :
    Passes s .start .nothing (.inside .blockEnd) .parent
  | inner {closer : Token.Kind} {d : Due} (kind : s.stream.current.kind.isInner = true) :
    Passes s (.inside closer) d (.inside closer) d
  | closer {closer : Token.Kind} {d : Due} (kind : s.stream.current.kind = closer)
    (outer : closer.isInner = false) (notEnd : closer ≠ .endOfTemplate) :
    Passes s (.inside closer) d .outside d
  | entered (kind : s.stream.current.kind = .blockEnd) (inside : s.openBlocks ≠ []) :
    Passes s (.inside .blockEnd) .block .outside .nothing

theorem Passes.kind_ne {s : ParseState} {p p' : Spot} {d d' : Due} (h : Passes s p d p' d') :
    s.stream.current.kind ≠ .endOfTemplate := by
  cases h with
  | text kind | print kind | tag kind | head kind | headExtends kind | entered kind =>
    rw [kind]
    decide
  | inner kind => exact Token.ne_end_of_isInner kind
  | closer kind _ notEnd => rwa [kind]

/-- Something that may be said of a parse of some tokens, and survives whatever it does. -/
structure Outline (v : Vocabulary) (tokens : List Token) where
  /-- What is said, of a place, what is due, the statements in hand, and a state. -/
  state : Spot → Due → List Node → ParseState → Prop
  /-- Whether the parse may come across a token that no statement starts with. -/
  stray : Prop
  misplaced : ∀ {d ns s}, state .outside d ns s →
    s.stream.current.kind ∉ [.text, .printStart, .blockStart, .endOfTemplate] → stray
  perm : ∀ {p d ns ms s}, ns.Perm ms → state p d ns s → state p d ms s
  gather : ∀ {p d n ms ns s block}, Scene.Composed ⟨v, tokens, block⟩ n ms →
    state p d (ms ++ ns) s → state p d (n :: ns) s
  spread : ∀ {p d n ns s}, n.kind = .body → state p d (n :: ns) s → state p d (n.children ++ ns) s
  drop : ∀ {p d n ns s}, state p d (n :: ns) s → state p d ns s
  pass : ∀ {p d p' d' ns s}, Passes s p d p' d' → state p d ns s → state p' d' ns s.pass
  opened : ∀ {ns s} {t name : Token}, t.Heads tokens "block" → name ∈ tokens → name.kind = .name →
    s.blocks.find? (·.name == name.value) = none → state (.inside .blockEnd) .nothing ns s →
    state (.inside .blockEnd) .block ns (s.opening name.value t.line)
  closed : ∀ {ns s name opened body} {t : Token}, t.Heads tokens "block" → s.openBlocks = name :: opened →
    Scene.Code ⟨v, tokens, some (name, s.parent.isSome)⟩ body →
    state .outside .block (body :: ns) s →
    state .outside .nothing (.leaf .blockReference t.line "name" name :: ns) (s.closing name body)
  extended : ∀ {ns s parent}, s.openBlocks = [] → Scene.Term ⟨v, tokens, none⟩ parent →
    state .outside .parent ns s → state .outside .nothing ns { s with parent := some parent }

/-! ## Steps -/

/-- Something has come out with a property, or there is a complaint about a line of the template. -/
inductive Ends (line : Int → Prop) (stray : Prop) (name : String) {α : Type} (P : α → Prop) :
    Except Failure α → Prop
  | ok {a : α} (h : P a) : Ends line stray name P (.ok a)
  | error {reason : Malformed} (expected : reason = .misplacedToken → stray) {l : Int} (h : line l) :
    Ends line stray name P (.error (.malformed reason name l))

section Ends

variable {line line' : Int → Prop} {stray : Prop} {name : String} {α β : Type} {P : α → Prop}

theorem Ends.bind {Q : β → Prop} {x : Except Failure α} {f : α → Except Failure β}
    (hx : Ends line stray name P x) (hf : ∀ a, P a → Ends line stray name Q (f a)) :
    Ends line stray name Q (x >>= f) := by
  cases hx with
  | ok h => exact hf _ h
  | error expected h => exact .error expected h

theorem Ends.mono {Q : α → Prop} {x : Except Failure α} (hx : Ends line stray name P x)
    (hline : ∀ l, line l → line' l) (h : ∀ a, P a → Q a) : Ends line' stray name Q x := by
  cases hx with
  | ok ended => exact .ok (h _ ended)
  | error expected h => exact .error expected (hline _ h)

end Ends

/-- The blocks that are open, whether the template extends another one if some are, and how far it is
to the end. -/
structure Inside where
  /-- The names of the open blocks, innermost first. -/
  opened : List String
  /-- Whether the template extends another one. -/
  extending : Bool
  /-- How many tokens are ahead, at most. -/
  limit : Nat

def Inside.within (k : Inside) (limit : Nat) : Inside := { k with limit }

namespace Outline

variable {v : Vocabulary} {tokens : List Token} {o : Outline v tokens} {name : String}

def scene (_ : Outline v tokens) (k : Inside) : Scene :=
  ⟨v, tokens, k.opened.head?.map fun block => (block, k.extending)⟩

structure At (o : Outline v tokens) (k : Inside) (p : Spot) (d : Due) (ns : List Node)
    (s : ParseState) : Prop where
  opened : s.openBlocks = k.opened
  extending : k.opened ≠ [] → s.parent.isSome = k.extending
  few : s.stream.remaining ≤ k.limit
  state : o.state p d ns s

/-- One state of a parse comes from another: the tokens are the same, and are not gone back. -/
structure After (tokens : List Token) (name : String) (s s' : ParseState) : Prop where
  tokens : s'.stream.tokens.toList = tokens
  template : s'.stream.template = name
  further : s'.stream.remaining ≤ s.stream.remaining

/-- A step from states of one sort to states of another. -/
def Leads (o : Outline v tokens) (name : String) {α : Type} (P : ParseState → Prop)
    (Q : α → ParseState → Prop) (x : Parse α) : Prop :=
  ∀ s, After tokens name s s → P s →
    Ends (Scene.Line ⟨v, tokens, none⟩) o.stray name (fun r => Q r.1 r.2 ∧ After tokens name s r.2) (x s)

section After

variable {s s' s'' : ParseState}

theorem After.self (h : After tokens name s s') : After tokens name s' s' :=
  ⟨h.tokens, h.template, Nat.le_refl _⟩

theorem After.trans (h : After tokens name s s') (h' : After tokens name s' s'') :
    After tokens name s s'' :=
  ⟨h'.tokens, h'.template, Nat.le_trans h'.further h.further⟩

theorem After.pass (h : After tokens name s s) : After tokens name s s.pass where
  tokens := (congrArg _ (TokenStream.tokens_advance _)).trans h.tokens
  template := (TokenStream.template_advance _).trans h.template
  further := by
    rw [ParseState.pass, TokenStream.remaining, TokenStream.tokens_advance]
    unfold TokenStream.advance
    split
    · exact Nat.le_refl _
    · exact Nat.sub_le_sub_left (Nat.le_succ _) _

theorem After.walk (h : After tokens name s s) (walk : Walk s s') : After tokens name s s' := by
  obtain ⟨-, -, -, same, same'⟩ := walk.unchanged
  refine ⟨(congrArg _ same).trans h.tokens, same'.trans h.template, ?_⟩
  obtain ⟨passed, ahead, -⟩ := walk.ahead
  rw [TokenStream.remaining_eq, TokenStream.remaining_eq, ahead, length_append]
  exact Nat.le_add_left _ _

theorem After.current_mem (h : After tokens name s s) : s.stream.current ∈ tokens :=
  h.tokens ▸ Array.mem_toList_iff.2 (Array.getElem_mem _)

end After

section Rules

variable {α β : Type} {P : ParseState → Prop} {Q : α → ParseState → Prop}
  {R : β → ParseState → Prop} {x : Parse α} {t : Token}

theorem Leads.bind {f : α → Parse β} (hx : o.Leads name P Q x)
    (hf : ∀ a, o.Leads name (Q a) R (f a)) : o.Leads name P R (x >>= f) :=
  fun s here hs => (hx s here hs).bind fun r h =>
    (hf r.1 r.2 h.2.self h.1).mono (fun _ => id) fun _ h' => ⟨h'.1, h.2.trans h'.2⟩

variable {P' : ParseState → Prop} {reason : Malformed} {f : β → Parse α} {c : Prop}

theorem Leads.mono {Q' : α → ParseState → Prop} (hx : o.Leads name P Q x) (hP : ∀ s, P' s → P s)
    (hQ : ∀ a s, Q a s → Q' a s) : o.Leads name P' Q' x :=
  fun s here hs => (hx s here (hP s hs)).mono (fun _ => id) fun _ h => ⟨hQ _ _ h.1, h.2⟩

theorem Leads.pre (hx : o.Leads name P Q x) (hP : ∀ s, P' s → P s) : o.Leads name P' Q x :=
  fun s here hs => hx s here (hP s hs)

theorem leads_pure {a : α} (h : ∀ s, P s → Q a s) : o.Leads name P Q (pure a : Parse α) :=
  fun s here hs => .ok ⟨h s hs, here⟩

theorem leads_fail {l : Int} (h : l ≤ 0 ∨ Scene.Line ⟨v, tokens, none⟩ l)
    (expected : ∀ s, P s → reason = .misplacedToken → o.stray) :
    o.Leads name P Q (fail reason l : Parse α) := by
  intro s here hs
  unfold fail
  rw [here.template]
  split
  · exact .error (expected s hs) ⟨_, here.current_mem, rfl⟩
  · next known => exact .error (expected s hs) (h.resolve_left known)

theorem leads_refuse (ht : t ∈ tokens) (other : reason ≠ .misplacedToken) :
    o.Leads name P Q (fail reason t.line >>= f) := by
  have never : o.Leads name P (fun _ _ => False) (fail reason t.line : Parse β) :=
    leads_fail (.inr ⟨t, ht, rfl⟩) fun _ _ is => absurd is other
  exact never.bind fun _ _ _ no => no.elim

theorem Leads.ite [Decidable c] {yes no : Parse α} (hyes : c → o.Leads name P Q yes)
    (hno : ¬c → o.Leads name P Q no) : o.Leads name P Q (if c then yes else no) := by
  split
  · next h => exact hyes h
  · next h => exact hno h

theorem Leads.unless [Decidable c] (ht : t ∈ tokens) (other : reason ≠ .misplacedToken)
    {rest : Parse α} (hrest : ¬c → o.Leads name P Q rest) :
    o.Leads name P Q (if c then fail reason t.line >>= f else rest) :=
  .ite (fun _ => leads_refuse ht other) hrest

theorem Leads.join [Decidable c] {yes : Parse β} {f : α → Parse β}
    (hf : ∀ a, o.Leads name (Q a) R (f a))
    (hyes : (∀ a, o.Leads name (Q a) R (f a)) → o.Leads name P R yes) (hx : o.Leads name P Q x) :
    o.Leads name P R (if c then yes else x >>= f) :=
  .ite (fun _ => hyes hf) fun _ => hx.bind hf

theorem Leads.optional [Decidable c] (hx : o.Leads name P (fun _ => P) x) {rest : Parse β}
    (hrest : o.Leads name P R rest) : o.Leads name P R (if c then x >>= fun _ => rest else rest) :=
  .ite (fun _ => hx.bind fun _ => hrest) fun _ => hrest

theorem Leads.look {f : ParseState → α} {g : α → Parse β}
    (h : ∀ s, After tokens name s s → P s → o.Leads name (fun s' => s' = s ∧ P s') R (g (f s))) :
    o.Leads name P R ((fun s => .ok (f s, s) : Parse α) >>= g) :=
  fun s here hs => h s here hs s here ⟨rfl, hs⟩

theorem leads_modify {f : ParseState → ParseState} (same : ∀ s, (f s).stream = s.stream)
    {Q : ParseState → Prop} (h : ∀ s, P s → Q (f s)) :
    o.Leads name P (fun _ => Q) (modify f : Parse PUnit) := by
  intro s here hs
  have same : ((), f s).2.stream = s.stream := same s
  exact .ok ⟨h s hs, same ▸ here.tokens, same ▸ here.template, same ▸ Nat.le_refl _⟩

theorem Leads.next {f : Token → Parse β}
    (h : ∀ t, t ∈ tokens → o.Leads name (fun s => ∃ s₀, s = s₀.pass ∧ s₀.stream.current = t ∧ P s₀)
      R (f t)) : o.Leads name P R (next >>= f) := by
  intro s here hs
  exact (h s.stream.current here.current_mem s.pass here.pass.self ⟨s, rfl, rfl, hs⟩).mono
    (fun _ => id) fun _ h => ⟨h.1, here.pass.trans h.2⟩

end Rules

variable {k : Inside} {m : Nat} {ns : List Node} {d : Due} {closer : Token.Kind}

variable {ms : List Node} {A : Prop} {p : Spot} {s : ParseState} {n : Node} {α β : Type}
  {Q : α → Prop} {x : Parse α} {P : ParseState → Prop} {R : β → ParseState → Prop}

theorem At.perm (h : o.At k p d ns s) (same : ns.Perm ms) : o.At k p d ms s :=
  { h with state := o.perm same h.state }

theorem At.gather (h : o.At k p d (ms ++ ns) s) (how : (o.scene k).Composed n ms) :
    o.At k p d (n :: ns) s :=
  { h with state := o.gather how h.state }

theorem At.single (h : o.At k p d ns s) (how : (o.scene k).Composed n []) :
    o.At k p d (n :: ns) s :=
  { h with state := o.gather how h.state }

theorem At.wider (h : o.At (k.within m) p d ns s) (le : m ≤ k.limit) : o.At k p d ns s :=
  { h with few := Nat.le_trans h.few le }

/-- A token has been passed, so there are fewer ahead. -/
theorem At.pass {p' : Spot} {d' : Due} (h : o.At (k.within (m + 1)) p d ns s)
    (how : Passes s p d p' d') : o.At (k.within m) p' d' ns s.pass where
  opened := h.opened
  extending := h.extending
  few := by
    have few : s.stream.remaining ≤ m + 1 := h.few
    rw [ParseState.remaining_pass how.kind_ne] at few
    exact Nat.le_of_succ_le_succ few
  state := o.pass how h.state

theorem At.skip {p' : Spot} {d' : Due} (h : o.At k p d ns s) (how : Passes s p d p' d') :
    o.At k p' d' ns s.pass :=
  have wider : o.At (k.within (k.limit + 1)) p d ns s := { h with few := Nat.le_succ_of_le h.few }
  wider.pass how

theorem At.holds (h : o.At k p d ns s) (here : After tokens name s s) : (o.scene k).Holds s := by
  refine ⟨here.tokens, ?_⟩
  rw [ParseState.block, h.opened, scene]
  cases opened : k.opened with
  | nil => rfl
  | cons block rest =>
    rw [h.extending (by rw [opened]; exact cons_ne_nil _ _)]

theorem At.walk {s' : ParseState} (h : o.At k (.inside closer) d ns s) (walk : Walk s s') :
    o.At k (.inside closer) d ns s' := by
  induction walk with
  | refl _ => exact h
  | step inner _ ih => exact ih (h.skip (.inner inner))

theorem leads_walk (hx : (o.scene k).Walks k.limit Q x) :
    o.Leads name (o.At k (.inside closer) d ns)
      (fun a s => Q a ∧ o.At k (.inside closer) d ns s) x := by
  intro s here hs
  have walked := hx s (hs.holds here) hs.few trivial
  generalize x s = ended at walked
  cases walked with
  | ok h walk => exact .ok ⟨⟨h, hs.walk walk⟩, here.walk walk⟩
  | error other h => exact here.template ▸ .error (fun is => absurd is other) h

theorem Leads.known {x : Parse β} (h : A → o.Leads name P R x) :
    o.Leads name (fun s => A ∧ P s) R x :=
  fun s here hs => h hs.1 s here hs.2

theorem Leads.walk {f : α → Parse β} (hx : (o.scene k).Walks k.limit Q x)
    (hf : ∀ a, Q a → o.Leads name (o.At k (.inside closer) d ns) R (f a)) :
    o.Leads name (o.At k (.inside closer) d ns) R (x >>= f) :=
  (leads_walk hx).bind fun a => .known (hf a)

theorem leads_expect (outer : closer.isInner = false) (notEnd : closer ≠ .endOfTemplate) :
    o.Leads name (o.At (k.within (m + 1)) (.inside closer) d ns)
      (fun _ => o.At (k.within m) .outside d ns) (expect closer []) := by
  intro s here hs
  unfold expect expectIn TokenStream.expect
  split
  · next found =>
    split at found
    · next is =>
      cases found
      exact .ok ⟨hs.pass (.closer (Token.test_iff.1 is).1 outer notEnd), here.pass⟩
    · cases found
  · next reason l failed =>
    split at failed
    · cases failed
    · cases failed
      have complains : o.Leads name (fun _ => True) (fun _ => o.At (k.within m) .outside d ns)
          (fail (.unexpected "" s.stream.current.kind s.stream.current.value closer none)
            s.stream.current.line : Parse Token) :=
        leads_fail (.inr ⟨_, here.current_mem, rfl⟩) fun _ _ no => absurd no (by simp)
      exact complains s here trivial

theorem leads_expect_skip (outer : closer.isInner = false) (notEnd : closer ≠ .endOfTemplate) :
    o.Leads name (o.At k (.inside closer) d ns) (fun _ => o.At k .outside d ns) (expect closer []) :=
  have passes : o.Leads name _ (fun _ => o.At (k.within k.limit) .outside d ns) (expect closer []) :=
    leads_expect outer notEnd
  passes.pre fun _ hs => { hs with few := Nat.le_succ_of_le hs.few }

theorem leads_blockEnd_pass : o.Leads name (o.At (k.within (m + 1)) (.inside .blockEnd) d ns)
    (fun _ => o.At (k.within m) .outside d ns) blockEnd :=
  (leads_expect rfl (by decide)).bind fun _ => leads_pure fun _ h => h

theorem leads_blockEnd :
    o.Leads name (o.At k (.inside .blockEnd) d ns) (fun _ => o.At k .outside d ns) blockEnd :=
  (leads_expect_skip rfl (by decide)).bind fun _ => leads_pure fun _ h => h

/-! ## Tags -/

def Stopped (o : Outline v tokens) (stop : Stop) (k : Inside) (ns : List Node) (s : ParseState) :
    Prop :=
  if stop.consume then ∃ word ∈ stop.names, o.At k (.inside .blockEnd) (.of word) ns s
  else o.At k .start .nothing ns s ∧ s.stream.current.kind = .name ∧
    s.stream.current.value ∈ stop.names

/-- The hooks of a tag read expressions, and bodies where at most `n` tokens are ahead. -/
structure Hooked (o : Outline v tokens) (name : String) (n : Nat) (hooks : Hooks) : Prop where
  expression : ∀ (k : Inside) {long} precedence,
    (o.scene k).Goes k.limit long (o.scene k).Term (hooks.expression precedence)
  body : ∀ k ns (stop : Stop), k.limit ≤ n → "extends" ∉ stop.names →
    o.Leads name (o.At k .outside .nothing ns)
    (fun body s => (o.scene k).Code body ∧ o.Stopped stop k (body :: ns) s) (hooks.body stop)

def Headed (o : Outline v tokens) (k : Inside) (ns : List Node) (t : Token) (s : ParseState) : Prop :=
  ∃ s₀ : ParseState, s = s₀.pass ∧ s₀.stream.current = t ∧ o.At k .start .nothing ns s₀

def Built (o : Outline v tokens) (k : Inside) (ns : List Node) (built : Option Node)
    (s : ParseState) : Prop :=
  (∀ n, built = some n → (o.scene k).Code n) ∧ o.At k .outside .nothing (built.toList ++ ns) s

variable {hooks : Hooks} {t : Token}

theorem Built.wider {built : Option Node} (h : o.Built (k.within m) ns built s) (le : m ≤ k.limit) :
    o.Built k ns built s :=
  ⟨h.1, h.2.wider le⟩

theorem Headed.inside (h : o.Headed k ns t s) (named : t.kind = .name)
    (plain : t.value ∉ ["extends", "endblock"]) : o.At k (.inside .blockEnd) .nothing ns s := by
  obtain ⟨s₀, rfl, rfl, start⟩ := h
  simp only [mem_cons, not_mem_nil, or_false, not_or] at plain
  have passed := start.skip (.head named plain.1)
  rwa [Due.of, if_neg plain.2] at passed

theorem Leads.headed {R : α → ParseState → Prop} {word : String} (site : t.Heads tokens word)
    (plain : word ∉ ["extends", "endblock"])
    (h : o.Leads name (o.At k (.inside .blockEnd) .nothing ns) R x) :
    o.Leads name (o.Headed k ns t) R x :=
  h.pre (fun _ hs => hs.inside site.kind (site.word ▸ plain))

theorem leads_built (how : (o.scene k).Composed n ms) (parts : ∀ m ∈ ms, (o.scene k).Code m) :
    o.Leads name (o.At k .outside .nothing (ms ++ ns)) (o.Built k ns) (pure (some n)) :=
  leads_pure fun _ hs => ⟨fun _ is => Option.some.inj is ▸ .composed how parts, hs.gather how⟩

section Tags

variable {room : Nat} (h : o.Hooked name room hooks) (fits : k.limit ≤ room)

include h fits

variable {α : Type} {R : α → ParseState → Prop}

theorem leads_body_next {names : List String}
    (plain : ∀ word ∈ names, word ∉ ["extends", "endblock"]) {f : Node → Token → Parse α}
    (hf : ∀ body t, (o.scene k).Code body → t ∈ tokens → o.Leads name (o.At k (.inside .blockEnd)
      .nothing (body :: ns)) R (f body t)) :
    o.Leads name (o.At k .outside .nothing ns) R (do
      let body ← hooks.body ⟨names, false⟩
      let t ← next
      f body t) := by
  refine (h.body k ns _ fits fun there => plain _ there (by decide)).bind fun body => .known fun code =>
    .next fun t there => ?_
  refine (hf body t code there).pre ?_
  rintro s ⟨s₀, rfl, rfl, start, named, known⟩
  exact Headed.inside ⟨s₀, rfl, rfl, start⟩ named (plain _ known)

theorem leads_body {word : String} (plain : "extends" ∉ [word]) {f : Node → Parse α}
    (hf : ∀ body, (o.scene k).Code body → o.Leads name (o.At k (.inside .blockEnd) (.of word) (body
      :: ns)) R (f body)) :
    o.Leads name (o.At k .outside .nothing ns) R (hooks.body ⟨[word], true⟩ >>= f) := by
  refine (h.body k ns _ fits plain).bind fun body => .known fun code =>
    (hf body code).pre ?_
  rintro s ⟨_, is, stands⟩
  exact mem_singleton.1 is ▸ stands

theorem forTag_leads (site : t.Heads tokens "for") :
    o.Leads name (o.Headed k ns t) (o.Built k ns) (forTag.parse hooks t) := by
  refine .headed site (by decide) (.walk (o.scene k).walks_targets fun targets htargets => ?_)
  refine .unless site.mem (by decide) fun few => .walk (walks_expect rfl _) fun _ _ => ?_
  refine .walk (h.expression k 0) fun sequence items => .walk (walks_nextIf rfl _) fun _ _ => ?_
  refine .join (Q := fun condition s => (condition = .absent ∨ (o.scene k).Term condition) ∧
      o.At k (.inside .blockEnd) .nothing ns s) (fun condition => .known fun asked => ?_)
    (fun rest => .walk (h.expression k 0) fun condition is =>
      (rest condition).pre (fun _ hs => ⟨.inr is, hs⟩))
    (leads_pure fun _ hs => ⟨.inl rfl, hs⟩)
  refine leads_blockEnd.bind fun _ => leads_body_next h fits (by decide) fun body _ code _ => ?_
  refine .join (Q := fun otherwise s => ∃ others, otherwise.Else others ∧
      (∀ m ∈ others, (o.scene k).Code m) ∧
      o.At k (.inside .blockEnd) .nothing (body :: others ++ ns) s) (fun otherwise => ?_)
    (fun rest => leads_blockEnd.bind fun _ => leads_body h fits (by decide) fun otherwise is =>
      (rest otherwise).pre (fun _ hs => ⟨[otherwise], .some _, forall_mem_singleton.2 is,
        hs.perm (.swap ..)⟩))
    (leads_pure fun _ hs => ⟨[], .none, forall_mem_nil _, hs⟩)
  rintro s here ⟨others, without, codes, hs⟩
  refine (leads_blockEnd.bind fun _ => ?_ : o.Leads name _ (o.Built k ns) _) s here hs
  have loop {key value : Node} (targets : (o.scene k).AreTargets [key, value]) :=
    @leads_built _ _ o name k ns _ _ (.loop site targets items asked without)
      (forall_mem_cons.2 ⟨code, codes⟩)
  have unnamed : (o.scene k).Term (.ofTarget "_key" t.line) := .leaf ⟨t, site.mem, rfl⟩ rfl (by decide)
  have single {value : Node} (is : (o.scene k).Term value ∧ value.kind = .target) :
      (o.scene k).AreTargets [.ofTarget "_key" t.line, value] :=
    ⟨forall_mem_cons.2 ⟨⟨unnamed, rfl⟩, forall_mem_singleton.2 is⟩, cons_ne_nil _ _⟩
  rcases targets with _ | ⟨first, _ | ⟨second, _ | ⟨third, more⟩⟩⟩
  · exact absurd rfl htargets.some
  · exact loop (single (htargets.all first mem_cons_self))
  · exact loop htargets
  · exact absurd (by simp) few

/-- Branches that have been read: conditions and bodies in turn, and maybe an else body. -/
def Branched (o : Outline v tokens) (k : Inside) (ns : List Node) (found : List Node × Node)
    (s : ParseState) : Prop :=
  ∃ pairs others, found.1 = inTurn pairs ∧ pairs ≠ [] ∧
    (∀ p ∈ pairs, (o.scene k).Term p.1) ∧ found.2.Else others ∧
    (∀ m ∈ pairs.map Prod.snd ++ others, (o.scene k).Code m) ∧
    o.At k (.inside .blockEnd) .nothing (pairs.map Prod.snd ++ others ++ ns) s

theorem leads_branches (l : Int) {fuel : Nat} (enough : fuel ≤ k.limit) {condition : Node}
    (asked : (o.scene k).Term condition) {done : List Node} {pairs : List (Node × Node)}
    (same : done.reverse = inTurn pairs)
    (conditions : ∀ p ∈ pairs, (o.scene k).Term p.1)
    (bodies : ∀ m ∈ pairs.map Prod.snd, (o.scene k).Code m) :
    o.Leads name (o.At (k.within fuel) (.inside .blockEnd) .nothing (pairs.map Prod.snd ++ ns))
      (o.Branched k ns) (branches hooks l fuel condition done) := by
  induction fuel generalizing condition done pairs with
  | zero => exact fun s _ hs => absurd hs.few (Nat.not_le.2 s.stream.remaining_pos)
  | succ fuel ih =>
    have enough := Nat.le_of_succ_le enough
    have room : (k.within fuel).limit ≤ room := Nat.le_trans enough fits
    refine leads_blockEnd_pass.bind fun _ =>
      leads_body_next h room (by decide) fun body t code there => ?_
    have same : (body :: condition :: done).reverse = inTurn (pairs ++ [(condition, body)]) := by
      simp [same, inTurn]
    have conditions : ∀ p ∈ pairs ++ [(condition, body)], (o.scene k).Term p.1 :=
      forall_mem_append.2 ⟨conditions, forall_mem_singleton.2 asked⟩
    have bodies : ∀ m ∈ (pairs ++ [(condition, body)]).map Prod.snd, (o.scene k).Code m := by
      rw [map_append]
      exact forall_mem_append.2 ⟨bodies, forall_mem_singleton.2 code⟩
    have some : pairs ++ [(condition, body)] ≠ [] := by simp
    -- the nodes in hand are the same in another order, which the outline does not see
    have hand (others : List Node) : (others ++ body :: (pairs.map Prod.snd ++ ns)).Perm
        ((pairs ++ [(condition, body)]).map Prod.snd ++ others ++ ns) := by
      classical
      refine perm_iff_count.2 fun n => ?_
      simp only [map_append, map_cons, map_nil, count_append, count_cons,
        count_nil]
      omega
    split
    · refine .walk (h.expression (k.within fuel) 0) fun condition asked => ?_
      refine (ih enough asked same conditions bodies).pre (fun s hs => ?_)
      exact hs.perm (by simpa using hand [])
    · refine leads_blockEnd.bind fun _ => leads_body h room (by decide) fun otherwise is =>
        leads_pure fun s hs => ?_
      exact ⟨_, [otherwise], same, some, conditions, .some _,
        forall_mem_append.2 ⟨bodies, forall_mem_singleton.2 is⟩,
        (hs.perm (hand [otherwise])).wider enough⟩
    · exact leads_pure fun s hs => ⟨_, [], same, some, conditions, .none,
        by rwa [append_nil], (hs.perm (hand [])).wider enough⟩
    · exact leads_fail (.inr ⟨t, there, rfl⟩) fun _ _ no => absurd no (by simp)

theorem ifTag_leads (site : t.Heads tokens "if") :
    o.Leads name (o.Headed k ns t) (o.Built k ns) (ifTag.parse hooks t) := by
  refine .headed site (by decide) (.walk (h.expression k 0) fun condition asked => .look fun s _ hs => ?_)
  have read : o.Leads name (o.At (k.within s.stream.remaining) (.inside .blockEnd) .nothing ns)
      (o.Branched k ns) (branches hooks t.line s.stream.remaining condition []) :=
    leads_branches h fits t.line hs.few asked (rfl : [].reverse = inTurn [])
      (forall_mem_nil _) (forall_mem_nil _)
  refine (read.pre ?_).bind fun found => ?_
  · rintro _ ⟨rfl, hs⟩
    exact { hs with few := Nat.le_refl _ }
  obtain ⟨tests, otherwise⟩ := found
  rintro s here ⟨pairs, others, same, some, conditions, without, codes, hs⟩
  cases same
  exact (leads_blockEnd.bind fun _ => leads_built (.branch site some conditions without) codes) s
    here hs

/-! ### Blocks and inheritance -/

omit h fits in
theorem leads_close {k : Inside} {block : String} {extending : Bool}
    (site : t.Heads tokens "block") (same : k.opened ≠ [] → k.extending = extending) {body : Node}
    (code : (o.scene ⟨block :: k.opened, extending, k.limit⟩).Code body) :
    o.Leads name (o.At ⟨block :: k.opened, extending, k.limit⟩ (.inside .blockEnd) .block (body :: ns))
      (o.Built k ns) (do
        blockEnd
        closeBlock block body
        return some (leaf .blockReference t.line "name" block)) := by
  have close : o.Leads name (o.At ⟨block :: k.opened, extending, k.limit⟩ .outside .block (body :: ns))
      (fun _ => o.At k .outside .nothing (.leaf .blockReference t.line "name" block :: ns))
      (closeBlock block body) := by
    refine leads_modify (f := fun s => s.closing block body) (fun _ => rfl) fun s hs => ?_
    have isSome : s.parent.isSome = extending := hs.extending (cons_ne_nil _ _)
    refine ⟨congrArg List.tail hs.opened, fun inside => isSome.trans (same inside).symm, hs.few, ?_⟩
    exact o.closed site hs.opened (isSome ▸ code) hs.state
  exact leads_blockEnd.bind fun _ => close.bind fun _ =>
    leads_pure fun _ hs => ⟨fun _ is => Option.some.inj is ▸ .reference site _, hs⟩

omit h fits in
theorem leads_enter (inside : k.opened ≠ []) {f : Option Token → Parse α}
    (hbody : ∀ t, o.Leads name (o.At k .outside .nothing ns) R (f (some t)))
    (hrest : o.Leads name (o.At k (.inside .blockEnd) .block ns) R (f none)) :
    o.Leads name (o.At k (.inside .blockEnd) .block ns) R (nextIf .blockEnd [] >>= f) := by
  intro s here hs
  cases ends : s.stream.test .blockEnd [] with
  | true =>
    show Ends _ _ _ _ (nextIf .blockEnd [] s >>= fun r => f r.1 r.2)
    rw [nextIf_of_test ends]
    have passed := hs.skip (.entered (Token.test_iff.1 ends).1 (hs.opened ▸ inside))
    exact (hbody _ s.pass here.pass.self passed).mono (fun _ => id)
      fun _ h => ⟨h.1, here.pass.trans h.2⟩
  | false =>
    show Ends _ _ _ _ (nextIf .blockEnd [] s >>= fun r => f r.1 r.2)
    rw [nextIf_of_not_test ends]
    exact hrest s here hs

theorem blockTag_leads (site : t.Heads tokens "block") :
    o.Leads name (o.Headed k ns t) (o.Built k ns) (blockTag.parse hooks t) := by
  refine .headed site (by decide) (.walk (walks_expect rfl _) fun block found => ?_)
  refine .look fun s _ _ => ?_
  dsimp only
  split
  · exact leads_refuse found.there (by simp)
  · next free =>
    let inner : Inside := ⟨block.value :: k.opened, s.parent.isSome, k.limit⟩
    have room : inner.limit ≤ room := fits
    have opens : o.Leads name (fun s' => s' = s ∧ o.At k (.inside .blockEnd) .nothing ns s')
        (fun _ s' => (k.opened ≠ [] → k.extending = s.parent.isSome) ∧
          o.At inner (.inside .blockEnd) .block ns s') (openBlock block.value t.line) := by
      refine leads_modify (f := fun s => s.opening block.value t.line) (fun _ => rfl) ?_
      rintro s' ⟨rfl, hs⟩
      refine ⟨fun inside => (hs.extending inside).symm, congrArg _ hs.opened, fun _ => rfl, hs.few, ?_⟩
      exact o.opened site found.there found.kind free hs.state
    refine opens.bind fun _ => .known fun same => ?_
    refine leads_enter (cons_ne_nil _ _) (fun _ => leads_body h room (by decide) fun body code => ?_) ?_
    · refine .walk (walks_nextIf rfl _) fun given hgiven => ?_
      split
      · next word =>
        obtain ⟨u, there, same'⟩ := hgiven word rfl
        exact same' ▸ Leads.unless there (by simp) fun _ => leads_close site same code
      · exact leads_close site same code
    · refine .walk (h.expression inner 0) fun expr shown => ?_
      have printed : (o.scene inner).Composed (.ofPrint expr t.line) [] := .print (.inr site) shown
      refine (leads_close site same (.composed printed (forall_mem_nil _))).pre
        fun _ hs => hs.single printed

omit fits in
theorem extendsTag_leads (site : t.Heads tokens "extends") :
    o.Leads name (o.Headed k ns t) (o.Built k ns) (extendsTag.parse hooks t) := by
  refine .look fun s _ hs => .unless site.mem (by decide) fun outer => ?_
  refine .look fun s' _ hs' => .unless site.mem (by decide) fun first => ?_
  have outer : s.openBlocks = [] := by simpa using outer
  have single : s'.parent = none := by simpa using first
  obtain ⟨rfl, hs'⟩ := hs'
  have top : k.opened = [] := by
    obtain ⟨s₀, rfl, -, start⟩ := hs
    exact start.opened.symm.trans outer
  have inside : o.Leads name (o.At k (.inside .blockEnd) .parent ns) (o.Built k ns) (do
      let parent ← hooks.expression 0
      blockEnd
      modify fun s => { s with parent := some parent }
      return none) := by
    refine .walk (h.expression k 0) fun parent named => leads_blockEnd.bind fun _ => ?_
    have scene : o.scene k = ⟨v, tokens, none⟩ := by rw [Outline.scene, top]; rfl
    have sets : o.Leads name (o.At k .outside .parent ns) (fun _ => o.At k .outside .nothing ns)
        (modify fun s => { s with parent := some parent }) := by
      refine leads_modify (f := fun s => { s with parent := some parent }) (fun _ => rfl) fun s hs => ?_
      refine ⟨hs.opened, fun inside => absurd top inside, hs.few, ?_⟩
      exact o.extended (hs.opened.trans top) (scene ▸ named) hs.state
    exact sets.bind fun _ => leads_pure fun _ hs => ⟨fun _ no => (nomatch no), hs⟩
  refine inside.pre ?_
  rintro _ ⟨rfl, -⟩
  obtain ⟨s₀, rfl, rfl, start⟩ := hs
  exact start.skip (.headExtends site.kind site.word outer single)

/-! ### Assignments and includes -/

theorem setTag_leads (site : t.Heads tokens "set") :
    o.Leads name (o.Headed k ns t) (o.Built k ns) (setTag.parse hooks t) := by
  refine .headed site (by decide) (.walk (o.scene k).walks_targets fun names htargets => ?_)
  refine .walk (walks_nextIf rfl _) fun _ _ => .ite (fun _ => .look fun s _ hs => ?_) fun _ => ?_
  · let m := s.stream.remaining
    have read : o.Leads name (o.At (k.within m) (.inside .blockEnd) .nothing ns) (o.Built (k.within m) ns)
        (do
          let values ← expressionList hooks.expression (m + 1) []
          blockEnd
          if names.length != values.length then fail .assignmentCount t.line
          return some (.node .assign t.line "" [("capture", .bool false)]
            [ofBody names t.line, ofBody values t.line])) := by
      refine .walk (walks_expressionList (h.expression k) hs.few (Nat.le_succ m) all_nil)
        fun values assigned => ?_
      refine leads_blockEnd.bind fun _ => .unless site.mem (by decide) fun same => ?_
      have how : (o.scene (k.within m)).Composed _ [] := .assign site htargets assigned
        (Decidable.not_not.1 fun different => same (bne_iff_ne.2 different))
      exact leads_built how (forall_mem_nil _)
    refine read.mono ?_ fun _ _ built => built.wider hs.few
    rintro _ ⟨rfl, hs⟩
    exact { hs with few := Nat.le_refl _ }
  · refine .unless site.mem (by decide) fun few => leads_blockEnd.bind fun _ => ?_
    refine leads_body h fits (by decide) fun body code => leads_blockEnd.bind fun _ => ?_
    obtain ⟨target, rfl⟩ : ∃ target, names = [target] := by
      refine length_eq_one_iff.1 ?_
      have := length_pos_iff.2 htargets.some
      omega
    exact leads_built (.capture site htargets) (forall_mem_singleton.2 code)

omit fits in
theorem includeTag_leads (site : t.Heads tokens "include") :
    o.Leads name (o.Headed k ns t) (o.Built k ns) (includeTag.parse hooks t) := by
  refine .headed site (by decide) (.walk (h.expression k 0) fun template named => ?_)
  refine .walk (walks_nextIf rfl _) fun _ _ => ?_
  refine .optional ((leads_walk (walks_expect rfl _)).mono (fun _ h => h) fun _ _ h => h.2)
    (.walk (walks_nextIf rfl _) fun _ _ => ?_)
  refine .join
    (Q := fun bindings s => (bindings = .absent ∨ (o.scene k).Term bindings) ∧
      o.At k (.inside .blockEnd) .nothing ns s) (fun bindings => .known fun given => ?_)
    (fun rest => .walk (h.expression k 0) fun bindings is =>
      (rest bindings).pre (fun _ hs => ⟨.inr is, hs⟩))
    (leads_pure fun _ hs => ⟨.inl rfl, hs⟩)
  refine .walk (walks_nextIf rfl _) fun _ _ => leads_blockEnd.bind fun _ => ?_
  exact leads_built (.inclusion site named given) (forall_mem_nil _)

theorem coreTags_leads {tag : Tag} (core : tag ∈ coreTags) (site : t.Heads tokens tag.name) :
    o.Leads name (o.Headed k ns t) (o.Built k ns) (tag.parse hooks t) := by
  simp only [coreTags, mem_cons, not_mem_nil, or_false] at core
  rcases core with rfl | rfl | rfl | rfl | rfl | rfl
  · exact forTag_leads h fits site
  · exact ifTag_leads h fits site
  · exact blockTag_leads h fits site
  · exact setTag_leads h fits site
  · exact includeTag_leads h site
  · exact extendsTag_leads h site

end Tags

/-! ## Bodies -/

section Statements

variable {g : Grammar} (core : ∀ tag ∈ g.tags, tag ∈ coreTags) {room : Nat}
  (h : o.Hooked name room hooks) {stop : Option Stop} (plain : ∀ st, stop = some st → "extends" ∉ st.names)

def Ended (o : Outline v tokens) (stop : Option Stop) (k : Inside) (ns : List Node)
    (s : ParseState) : Prop :=
  match stop with
  | none => o.At k .outside .nothing ns s
  | some stop => o.Stopped stop k ns s

omit core h plain in
theorem Ended.imp {s : ParseState} {k' : Inside} {ms : List Node} (ended : o.Ended stop k ns s)
    (h : ∀ {p d}, o.At k p d ns s → o.At k' p d ms s) : o.Ended stop k' ms s := by
  rcases stop with _ | ⟨names, consume⟩
  · exact h ended
  · cases consume with
    | true =>
      obtain ⟨word, there, stands⟩ := ended
      exact ⟨word, there, h stands⟩
    | false => exact ⟨h ended.1, ended.2⟩

omit core h plain in
theorem Ended.joined {s : ParseState} {nodes : List Node} {l : Int}
    (ended : o.Ended stop k (nodes ++ ns) s) (there : (o.scene k).Line l ∨ l = 1) :
    o.Ended stop k (joined nodes l :: ns) s := by
  have gather {p : Spot} {d : Due} (hs : o.At k p d (nodes ++ ns) s) :
      o.At k p d (Parse.joined nodes l :: ns) s := by
    unfold Parse.joined
    split
    · exact hs
    · exact hs.gather (.row there)
  exact ended.imp gather

include core h plain

theorem leads_tagStatement (fits : k.limit ≤ room) :
    o.Leads name (fun s => o.At k .start .nothing ns s ∧
        ∃ start : Token, start.kind = .blockStart ∧ [start, s.stream.current] <:+: tokens)
      (fun found s => match found with
        | none => o.Ended stop k ns s
        | some built => o.Built k ns built s)
      (tagStatement g hooks stop) := by
  refine .look fun s _ hs => ?_
  obtain ⟨start, starts, there⟩ := hs.2
  have here : s.stream.current ∈ tokens := there.subset (mem_cons_of_mem _ mem_cons_self)
  refine .unless here (by decide) fun named => ?_
  have named : s.stream.current.kind = .name := by simpa using named
  refine .ite (fun stops => ?_) fun goes => ?_
  · obtain ⟨st, rfl, stops⟩ := (Option.any_eq_true _ _).1 stops
    have stops : s.stream.current.value ∈ st.names := by simpa using stops
    refine .ite (fun consume => ?_) fun consume => leads_pure ?_
    · refine .next fun _ _ => leads_pure ?_
      rintro _ ⟨_, rfl, -, rfl, start, -⟩
      have consume : st.consume = true := by simpa using consume
      refine (if_pos consume).mpr ⟨_, stops, ?_⟩
      exact start.skip (.head named fun is => plain st rfl (is ▸ stops))
    · rintro _ ⟨rfl, start, -⟩
      exact (if_neg (by simpa using consume)).mpr ⟨start, named, stops⟩
  · dsimp only
    split
    · exact .unless here (by simp) fun _ =>
        leads_fail (.inr ⟨_, here, rfl⟩) fun _ _ no => absurd no (by simp)
    · next tag found =>
      have member := mem_of_find?_eq_some found
      have same := eq_of_beq (find?_some (p := fun u : Tag => u.name == s.stream.current.value) found)
      have site : s.stream.current.Heads tokens tag.name := ⟨⟨start, starts, there⟩, named, same.symm⟩
      refine .next fun _ _ => ?_
      have read : o.Leads name (o.Headed k ns s.stream.current) (o.Built k ns) _ :=
        coreTags_leads h fits (core tag member) site
      refine (read.pre ?_).bind fun built => ?_
      · rintro _ ⟨s₀, rfl, -, rfl, start, -⟩
        exact ⟨s₀, rfl, rfl, start⟩
      · cases built with
        | none => exact leads_pure fun _ hs => hs
        | some n =>
          refine leads_pure fun _ hs => ⟨fun _ is => ?_, hs.2.gather (.tagged tag.name)⟩
          exact Option.some.inj is ▸ .composed (.tagged tag.name)
            (forall_mem_singleton.2 (hs.1 n rfl))

theorem leads_statementList {fuel : Nat} (fits : fuel ≤ room + 1) (enough : fuel ≤ k.limit)
    {done : List Node} (codes : ∀ n ∈ done, (o.scene k).Code n) :
    o.Leads name (o.At (k.within fuel) .outside .nothing (done ++ ns))
      (fun nodes s => (∀ n ∈ nodes, (o.scene k).Code n) ∧ o.Ended stop k (nodes ++ ns) s)
      (statementList g hooks stop fuel done) := by
  have reversed : ∀ n ∈ done.reverse, (o.scene k).Code n := fun n hn => codes n (mem_reverse.1 hn)
  have turn : (done ++ ns).Perm (done.reverse ++ ns) := done.reverse_perm.symm.append_right ns
  induction fuel generalizing done with
  | zero => exact fun s _ hs => absurd hs.few (Nat.not_le.2 s.stream.remaining_pos)
  | succ fuel ih =>
    refine .look fun s here hs => ?_
    have fits := Nat.le_of_succ_le_succ fits
    have enough' := Nat.le_of_succ_le enough
    have more {n : Node} (code : (o.scene k).Code n) :=
      have all := forall_mem_cons.2 ⟨code, codes⟩
      ih (Nat.le_succ_of_le fits) enough' all (fun m hm => all m (mem_reverse.1 hm))
        ((reverse_perm (n :: done)).symm.append_right ns)
    split
    · cases stop with
      | some st => exact leads_refuse here.current_mem (by decide)
      | none => exact leads_pure fun _ ⟨_, hs⟩ => ⟨reversed, (hs.perm turn).wider enough⟩
    · next kind =>
      have how : (o.scene k).Composed _ [] := .text here.current_mem
      refine .next fun _ _ => (more (.composed how (forall_mem_nil _))).pre ?_
      rintro _ ⟨_, rfl, -, rfl, hs⟩
      exact (hs.pass (.text kind)).single how
    · next kind =>
      refine .next fun _ _ => Leads.pre
        (P := o.At (k.within fuel) (.inside .printEnd) .nothing (done ++ ns)) ?_ ?_
      · refine .walk (h.expression (k.within fuel) 0) fun expr shown => ?_
        have how : (o.scene k).Composed _ [] := .print (.inl ⟨here.current_mem, kind⟩) shown
        refine (leads_expect_skip rfl (by decide)).bind fun _ => ?_
        exact (more (.composed how (forall_mem_nil _))).pre fun _ hs => hs.single how
      · rintro _ ⟨_, rfl, -, rfl, hs⟩
        exact hs.pass (.print kind)
    · next kind =>
      refine .next fun _ _ => Leads.pre
        (P := fun s' => o.At (k.within fuel) .start .nothing (done ++ ns) s' ∧
          ∃ start : Token, start.kind = .blockStart ∧ [start, s'.stream.current] <:+: tokens) ?_ ?_
      · refine (leads_tagStatement core h plain fits).bind fun found => ?_
        rcases found with _ | _ | node
        · refine leads_pure fun s hs => ⟨reversed, ?_⟩
          have ended : o.Ended stop (k.within fuel) (done ++ ns) s := hs
          exact ended.imp fun hs => (hs.perm turn).wider enough'
        · exact (ih (Nat.le_succ_of_le fits) enough' codes reversed turn).pre fun _ hs => hs.2
        · exact .known fun code => more (code node rfl)
      · rintro _ ⟨s, rfl, -, rfl, hs⟩
        refine ⟨hs.pass (.tag kind), _, kind, ?_⟩
        have ahead : [s.stream.current, s.pass.stream.current] <+: s.stream.ahead := by
          rw [TokenStream.ahead_advance (by rw [kind]; decide), TokenStream.ahead_eq_cons]
          exact ⟨_, rfl⟩
        exact ahead.isInfix.trans (here.tokens ▸ (drop_suffix _ _).isInfix)
    · next noEnd noText noPrint noTag =>
      refine leads_fail (.inr ⟨_, here.current_mem, rfl⟩) ?_
      intro s' hs' _
      refine o.misplaced hs.state ?_
      simp only [mem_cons, not_mem_nil, or_false, not_or]
      exact ⟨noText, noPrint, noTag, noEnd⟩

omit h

/-- **A body is read as statements**, and what is said of the parse is kept. -/
theorem leads_statements (scene : g.vocabulary = v) {depth : Nat} (fits : k.limit ≤ depth) :
    o.Leads name (o.At k .outside .nothing ns)
      (fun body s => (o.scene k).Code body ∧ o.Ended stop k (body :: ns) s)
      (statements g depth stop) := by
  induction depth generalizing k ns stop with
  | zero =>
    intro s _ hs
    exact absurd (Nat.le_trans hs.few fits) (Nat.not_le.2 s.stream.remaining_pos)
  | succ depth ih =>
    have hooks : o.Hooked name depth ⟨g.vocabulary, expression g.vocabulary,
        fun stop => statements g depth (some stop)⟩ :=
      ⟨fun k _ precedence => scene ▸ (o.scene k).walks_expression precedence, fun k ns stop fits extends_ =>
        @ih k ns (some stop) (fun _ is => Option.some.inj is ▸ extends_) fits⟩
    refine .look fun s here _ => .look fun s' _ hs => ?_
    have read : o.Leads name (o.At (k.within s'.stream.remaining) .outside .nothing ([] ++ ns)) _ _ :=
      leads_statementList core hooks plain (Nat.le_trans hs.2.few fits) hs.2.few (forall_mem_nil _)
    refine (read.pre ?_).bind fun nodes => .known fun codes => leads_pure fun s'' hs => ?_
    · rintro _ ⟨rfl, -, begun⟩
      exact { begun with few := Nat.le_refl _ }
    · have there : (o.scene k).Line s.stream.current.line := ⟨_, here.current_mem, rfl⟩
      exact ⟨.joined codes (.inl there), hs.joined (.inl there)⟩

end Statements

/-! ## Templates -/

section Templates

variable {p : Spot} {s₀ : ParseState}

mutual

theorem leads_withoutOutput (n : Node) {ns : List Node} (code : (o.scene k).Code n)
    (hand : o.At k p d (n :: ns) s₀) :
    o.Leads name (· = s₀) (fun kept s => ((∀ m, kept = some m → (o.scene k).Code m) ∧
      o.At k p d (kept.toList ++ ns) s₀) ∧ s = s₀) (withoutOutput n) := by
  have dropped : o.Leads name (· = s₀) (fun kept s => ((∀ m, kept = some m → (o.scene k).Code m) ∧
      o.At k p d (kept.toList ++ ns) s₀) ∧ s = s₀) (pure none) :=
    leads_pure fun _ same =>
      ⟨⟨fun _ no => (nomatch no), { hand with state := o.drop hand.state }⟩, same⟩
  match n with
  | .absent => exact dropped
  | .node kind line tag attrs children =>
    unfold withoutOutput
    split
    · exact .ite (fun _ => dropped) fun _ =>
        leads_fail (.inr (code.line_of_text rfl)) fun _ _ no => absurd no (by decide)
    · exact dropped
    · exact dropped
    · have row : o.At k p d (children ++ ns) s₀ :=
        { hand with state := o.spread rfl hand.state }
      obtain ⟨there, codes⟩ := code.row rfl
      refine (leads_allWithoutOutput children codes row).bind fun kept =>
        .known fun known => leads_pure fun _ same => ⟨⟨fun _ is => ?_, ?_⟩, same⟩
      · exact Option.some.inj is ▸ .composed (.row there) known.1
      · exact known.2.gather (.row there)
    · exact leads_pure fun _ same => ⟨⟨fun _ is => Option.some.inj is ▸ code, hand⟩, same⟩

theorem leads_allWithoutOutput (cs : List Node) {ns : List Node}
    (codes : ∀ c ∈ cs, (o.scene k).Code c) (hand : o.At k p d (cs ++ ns) s₀) :
    o.Leads name (· = s₀) (fun kept s => ((∀ m ∈ kept, (o.scene k).Code m) ∧
      o.At k p d (kept ++ ns) s₀) ∧ s = s₀) (allWithoutOutput cs) := by
  match cs with
  | [] => exact leads_pure fun _ same => ⟨⟨codes, hand⟩, same⟩
  | n :: cs =>
    obtain ⟨code, codes⟩ := forall_mem_cons.1 codes
    refine (leads_withoutOutput n code hand).bind fun first => .known fun hfirst => ?_
    refine (leads_allWithoutOutput cs codes (hfirst.2.perm (perm_append_comm_assoc ..))).bind
      fun rest => .known fun hrest => leads_pure fun _ same => ⟨⟨?_, ?_⟩, same⟩
    · exact forall_mem_append.2 ⟨fun m hm => hfirst.1 m (Option.mem_toList.1 hm), hrest.1⟩
    · rw [append_assoc]
      exact hrest.2.perm (perm_append_comm_assoc ..)

end

variable {g : Grammar} (core : ∀ tag ∈ g.tags, tag ∈ coreTags) (scene : g.vocabulary = v)

include core scene

/-- A template has been read: it consists of the body in hand and of the blocks and the parent that
the parse has come across. -/
theorem leads_template {limit : Nat} :
    o.Leads name (o.At ⟨[], false, limit⟩ .outside .nothing [])
      (fun module s => ∃ body, module = .ofModule body (s.parent.getD .absent)
        (s.blocks.map blockNode) name ∧ Scene.Code ⟨v, tokens, none⟩ body ∧ o.At ⟨[], false, limit⟩
        .outside .nothing [body] s) (template g) := by
  refine .look fun s _ hs => ?_
  have plain : ∀ stop : Stop, none = some stop → "extends" ∉ stop.names := fun _ no => (nomatch no)
  have few := hs.few
  have read : o.Leads name (o.At ⟨[], false, s.stream.remaining⟩ .outside .nothing [])
      (fun body s => Scene.Code ⟨v, tokens, none⟩ body ∧
        o.At ⟨[], false, limit⟩ .outside .nothing [body] s)
      (statements g (s.stream.remaining + 1) none) :=
    (leads_statements core plain scene (Nat.le_succ s.stream.remaining)).mono (fun _ h => h)
      fun _ _ ended => ⟨ended.1, At.wider (k := ⟨[], false, limit⟩) ended.2 few⟩
  refine (read.pre ?_).bind fun body => .known fun code => .look fun s here hs => ?_
  · rintro _ ⟨rfl, hs⟩
    exact { hs with few := Nat.le_refl _ }
  dsimp only
  split
  · next none =>
    refine leads_pure ?_
    rintro _ ⟨rfl, hs⟩
    exact ⟨body, by rw [none, here.template]; rfl, code, hs⟩
  · next parent some =>
    refine ((leads_withoutOutput (k := ⟨[], false, limit⟩) body code hs).pre fun _ h => h.1).bind fun kept =>
      .known fun hkept => leads_pure ?_
    rintro _ rfl
    refine ⟨_, by rw [some, here.template]; rfl, ?_⟩
    cases kept with
    | none => exact ⟨.composed (.row (.inr rfl)) (forall_mem_nil _),
        hkept.2.single (.row (.inr rfl))⟩
    | some n => exact ⟨hkept.1 n rfl, hkept.2⟩

/-- **A template is read as statements, or there is a complaint about the line of a token.** -/
theorem tree_ends (stream : TokenStream) (same : stream.tokens.toList = tokens)
    (begun : o.state .outside .nothing []
      { stream, blocks := [], openBlocks := [], parent := none }) :
    Ends (Scene.Line ⟨v, tokens, none⟩) o.stray stream.template
      (fun module => ∃ body s, module = .ofModule body (s.parent.getD .absent)
        (s.blocks.map blockNode) stream.template ∧ Scene.Code ⟨v, tokens, none⟩ body ∧ s.openBlocks
        = [] ∧ o.state .outside .nothing [body] s) (tree g stream) := by
  have read := @leads_template _ _ o stream.template _ core scene stream.remaining
    { stream, blocks := [], openBlocks := [], parent := none } ⟨same, rfl, Nat.le_refl _⟩
    ⟨rfl, fun no => absurd rfl no, Nat.le_refl _, begun⟩
  unfold tree
  generalize template g _ = ended at read ⊢
  cases read with
  | ok h =>
    obtain ⟨⟨body, is, code, hs⟩, -⟩ := h
    exact .ok ⟨body, _, is, code, hs.opened, hs.state⟩
  | error expected h => exact .error expected h

end Templates

/-! ## Blocks and parents -/

/-- What a parse stores is made of statements: the expression of the parent, and the bodies of the
blocks that are not open any more. -/
structure Stored (v : Vocabulary) (tokens : List Token) (s : ParseState) : Prop where
  names : (s.blocks.map (·.name)).Nodup
  opened : ∀ name ∈ s.openBlocks, name ∈ s.blocks.map (·.name)
  blocks : ∀ b ∈ s.blocks, (∃ t : Token, t.Heads tokens "block" ∧ t.line = b.line) ∧
    (∃ t ∈ tokens, t.kind = .name ∧ t.value = b.name) ∧
    (b.name ∈ s.openBlocks ∨ ∃ extending, (extending = true → s.parent.isSome = true) ∧
      Scene.Code ⟨v, tokens, some (b.name, extending)⟩ b.body)
  parent : ∀ n, s.parent = some n → Scene.Term ⟨v, tokens, none⟩ n

theorem Stored.opening (h : Stored v tokens s) {t name : Token} (site : t.Heads tokens "block")
    (there : name ∈ tokens) (named : name.kind = .name)
    (free : s.blocks.find? (·.name == name.value) = none) :
    Stored v tokens (s.opening name.value t.line) where
  names := by
    have new : name.value ∉ s.blocks.map (·.name) := by
      intro old
      obtain ⟨b, hb, same⟩ := mem_map.1 old
      exact find?_eq_none.1 free b hb (beq_iff_eq.2 same)
    rw [ParseState.opening, map_append]
    refine nodup_append.2 ⟨h.names, by simp, ?_⟩
    rintro a ha b hb rfl
    have is : a = name.value := mem_singleton.1 hb
    exact new (is ▸ ha)
  opened other hother := by
    rw [ParseState.opening, map_append, mem_append]
    rcases mem_cons.1 hother with rfl | old
    · exact .inr mem_cons_self
    · exact .inl (h.opened other old)
  blocks b hb := by
    rcases mem_append.1 hb with old | new
    · exact (h.blocks b old).imp_right (And.imp_right (Or.imp_left (mem_cons_of_mem _)))
    · cases mem_singleton.1 new
      exact ⟨⟨t, site, rfl⟩, ⟨name, there, named, rfl⟩, .inl mem_cons_self⟩
  parent := h.parent

theorem Stored.closing (h : Stored v tokens s) {name : String} {opened : List String}
    (inside : s.openBlocks = name :: opened) {body : Node}
    (code : Scene.Code ⟨v, tokens, some (name, s.parent.isSome)⟩ body) :
    Stored v tokens (s.closing name body) := by
  have same : (s.closing name body).blocks.map (·.name) = s.blocks.map (·.name) := by
    rw [ParseState.closing, map_map]
    refine map_congr_left fun b _ => ?_
    rw [Function.comp_apply]
    split <;> rfl
  refine ⟨same ▸ h.names, fun other hother => ?_, fun b hb => ?_, h.parent⟩
  · rw [same]
    exact h.opened other (mem_of_mem_tail hother)
  · obtain ⟨draft, hdraft, rfl⟩ := mem_map.1 hb
    obtain ⟨site, named, state⟩ := h.blocks draft hdraft
    split
    · next is => exact ⟨site, named, .inr ⟨_, id, eq_of_beq is ▸ code⟩⟩
    · next other =>
      refine ⟨site, named, state.imp_left fun old => ?_⟩
      rw [inside] at old
      rw [ParseState.closing, inside]
      exact (mem_cons.1 old).resolve_left fun is => other (beq_iff_eq.2 is)

theorem Stored.extending (h : Stored v tokens s) {parent : Node}
    (named : Scene.Term ⟨v, tokens, none⟩ parent) :
    Stored v tokens { s with parent := some parent } where
  names := h.names
  opened := h.opened
  blocks b hb := (h.blocks b hb).imp_right (And.imp_right (Or.imp_right fun ⟨_, _, code⟩ =>
    ⟨_, fun _ => rfl, code⟩))
  parent _ is := Option.some.inj is ▸ named

theorem stored_nothing (stream : TokenStream) :
    Stored v tokens { stream, blocks := [], openBlocks := [], parent := none } :=
  ⟨nodup_nil, forall_mem_nil _, forall_mem_nil _,
    fun _ no => (nomatch no)⟩

def stored (o : Outline v tokens) : Outline v tokens where
  state p d ns s := Stored v tokens s ∧ o.state p d ns s
  stray := o.stray
  misplaced h := o.misplaced h.2
  perm same h := ⟨h.1, o.perm same h.2⟩
  gather how h := ⟨h.1, o.gather how h.2⟩
  spread kind h := ⟨h.1, o.spread kind h.2⟩
  drop h := ⟨h.1, o.drop h.2⟩
  pass how h := ⟨⟨h.1.names, h.1.opened, h.1.blocks, h.1.parent⟩, o.pass how h.2⟩
  opened site there named free h :=
    ⟨h.1.opening site there named free, o.opened site there named free h.2⟩
  closed site inside code h := ⟨h.1.closing inside code, o.closed site inside code h.2⟩
  extended outer named h := ⟨h.1.extending named, o.extended outer named h.2⟩

def any (v : Vocabulary) (tokens : List Token) : Outline v tokens where
  state _ _ _ _ := True
  stray := True
  misplaced _ _ := trivial
  perm _ _ := trivial
  gather _ _ := trivial
  spread _ _ := trivial
  drop _ := trivial
  pass _ _ := trivial
  opened _ _ _ _ _ := trivial
  closed _ _ _ _ := trivial
  extended _ _ _ := trivial

end Outline
end Stencil
