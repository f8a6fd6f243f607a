import Stencil.Proofs.FrontEnd

/-!
# Trees are well scoped

What a parse makes of a template refers only to what is there. Calls name callables of the language,
named arguments are arguments of calls, and both ends of a loop carry the same flags: `Node.Apt` says
so of a node, by what stands right below it, and holds everywhere in a tree. The content of a parent
block is asked for inside the block it belongs to.

The blocks of a template are kept beside the tree, which has references in their places. While
templates are read (`Outline.listed`), the references in hand and in the blocks that have been closed
are names of closed blocks, each once.
-/

namespace Stencil

open Parse List Node

def Vocabulary.callables? (v : Vocabulary) : Node.Kind → Option (List String)
  | .filter => some v.filters
  | .call => some v.functions
  | .test => some v.tests
  | _ => none

namespace Node

/-! ## What is said of a node -/

/-- A property of a node and of all that stands below it. -/
inductive Everywhere (P : Node → Prop) : Node → Prop
  | intro {n : Node} (here : P n) (below : ∀ c ∈ n.children, Everywhere P c) : Everywhere P n

def loopRound? (n : Node) : Node :=
  if (n.child 3).kind = .branch then ((n.child 3).child 0).child 1 else n.child 3

/-- A node that fits into its tree, inside a block of a template that extends another one or not. -/
structure Apt (v : Vocabulary) (block : Option (String × Bool)) (n : Node) : Prop where
  callable : ∀ names, v.callables? n.kind = some names → names.contains (n.text "name") = true
  parent : n.kind = .parent → block = some (n.text "name", true)
  named : ∀ c ∈ n.children, c.kind = .namedArgument → n.kind = .arguments
  arguments : ∀ c ∈ n.children, c.kind = .arguments → ∀ a ∈ c.children, a.kind = .namedArgument →
    n.kind ∈ [.filter, .call, .test]
  /-- The end of a loop stands at the end of a round, and there alone. -/
  loopEnd : ∀ c ∈ n.children, c.kind = .loopEnd →
    ∃ body, n.children = [body, c] ∧ body.kind ≠ .loopEnd
  loop : n.kind = .loop → ∃ body ending, n.loopRound?.children = [body, ending] ∧
    ending.kind = .loopEnd ∧ ∀ flag ∈ ["with_loop", "ifexpr", "else"], ending.attr? flag = n.attr? flag

variable {v : Vocabulary} {block : Option (String × Bool)} {n : Node}

def Kind.isAttached : Kind → Bool
  | .namedArgument | .arguments | .loopEnd => true
  | _ => false

theorem Kind.ne_of_unattached {k : Kind} (h : k.isAttached = false) :
    k ≠ .namedArgument ∧ k ≠ .arguments ∧ k ≠ .loopEnd := by
  refine ⟨?_, ?_, ?_⟩ <;> rintro rfl <;> cases h

def Kind.isCalling : Kind → Bool
  | .filter | .call | .test | .parent | .loop => true
  | _ => false

theorem Kind.plain_of_operator {k : Kind} (h : k.isUnary = true ∨ k.isBinary = true) :
    k.isAttached = false ∧ k.isCalling = false := by
  cases k <;> first | exact ⟨rfl, rfl⟩ | simp [isUnary, isBinary] at h

theorem Kind.callables?_eq_none {k : Kind} (h : k.isCalling = false) : v.callables? k = none := by
  cases k <;> first | rfl | cases h

/-- A node of which nothing is to be said but what stands below it. -/
theorem apt_of_own (own : n.kind.isCalling = false)
    (named : ∀ c ∈ n.children, c.kind = .namedArgument → n.kind = .arguments)
    (arguments : ∀ c ∈ n.children, c.kind = .arguments → ∀ a ∈ c.children, a.kind ≠ .namedArgument)
    (loopEnd : ∀ c ∈ n.children, c.kind = .loopEnd →
      ∃ body, n.children = [body, c] ∧ body.kind ≠ .loopEnd) : n.Apt v block where
  callable names is := by rw [Kind.callables?_eq_none own] at is; cases is
  parent is := by rw [is] at own; cases own
  named := named
  arguments c hc is a ha is' := absurd is' (arguments c hc is a ha)
  loopEnd := loopEnd
  loop is := by rw [is] at own; cases own

/-- A node that may stand anywhere, over nodes that fit together. -/
abbrev Fits (v : Vocabulary) (block : Option (String × Bool)) (n : Node) : Prop :=
  n.kind.isAttached = false ∧ n.Everywhere (Apt v block)

theorem everywhere_plain (own : n.kind.isCalling = false) (below : ∀ c ∈ n.children, c.Fits v block) :
    n.Everywhere (Apt v block) := by
  have other {c : Node} (hc : c ∈ n.children) := Kind.ne_of_unattached (below c hc).1
  exact .intro (apt_of_own own (fun _ hc is => absurd is (other hc).1)
    (fun _ hc is => absurd is (other hc).2.1) fun _ hc is => absurd is (other hc).2.2)
    fun c hc => (below c hc).2

theorem everywhere_call {kind : Kind} {name : String} {names : List String} {l l' : Int}
    (ns : List Node) {ms : List Node} (sort : kind ∈ [.filter, .call, .test])
    (callable : v.callables? kind = some names) (known : names.contains name = true)
    (operands : ∀ n ∈ ns, n.Fits v block)
    (args : ∀ n ∈ ms, (n.kind.isAttached = false ∨ n.kind = .namedArgument) ∧
      n.Everywhere (Apt v block)) :
    (ofCall kind name l (ns ++ [.plain .arguments l' ms])).Everywhere (Apt v block) := by
  have own {other : Kind} (none : v.callables? other = none) : kind ≠ other := fun is => by
    rw [is, none] at callable
    cases callable
  have plain {c : Node} (hc : c ∈ ns ++ [.plain .arguments l' ms]) :
      c.kind ≠ .namedArgument ∧ c.kind ≠ .loopEnd := by
    rcases mem_append.1 hc with hc | hc
    · have other := Kind.ne_of_unattached (operands c hc).1
      exact ⟨other.1, other.2.2⟩
    · rw [mem_singleton.1 hc]
      exact ⟨by rintro ⟨⟩, by rintro ⟨⟩⟩
  have inner : (Node.plain .arguments l' ms).Everywhere (Apt v block) := by
    have other {k : Kind} (attached : k.isAttached = true) (no : k ≠ .namedArgument) {c : Node}
        (hc : c ∈ ms) : c.kind ≠ k := by
      rintro rfl
      rcases (args c hc).1 with is | is
      · rw [is] at attached
        cases attached
      · exact no is
    exact .intro (apt_of_own rfl (fun _ _ _ => rfl)
      (fun _ hc is => absurd is (other rfl (by decide) hc))
      fun _ hc is => absurd is (other rfl (by decide) hc)) fun c hc => (args c hc).2
  refine .intro ⟨fun found is => ?_, fun is => absurd is (own rfl), fun _ hc is => absurd is (plain hc).1,
    fun _ _ _ _ _ _ => sort, fun _ hc is => absurd is (plain hc).2, fun is => absurd is (own rfl)⟩ ?_
  · rw [← Option.some.inj (callable.symm.trans is)]
    exact known
  · exact forall_mem_append.2 ⟨fun c hc => (operands c hc).2, forall_mem_singleton.2 inner⟩

theorem fits_absent : Fits v block .absent := ⟨rfl, everywhere_plain rfl (forall_mem_nil _)⟩

theorem fits_body {ns : List Node} {l : Int} (h : ∀ n ∈ ns, n.Fits v block) :
    (ofBody ns l).Fits v block :=
  ⟨rfl, everywhere_plain rfl h⟩

theorem Fits.withTag (h : n.Fits v block) (word : String) : (n.withTag word).Fits v block := by
  cases n with
  | absent => exact h
  | node k l t as cs =>
    obtain ⟨attached, here, below⟩ := h
    exact ⟨attached, .intro ⟨here.callable, here.parent, here.named, here.arguments, here.loopEnd,
      here.loop⟩ below⟩

/-! ## References to blocks -/

mutual

def references : Node → List String
  | absent => []
  | node k l t as cs =>
    if k = .blockReference then (node k l t as cs).text "name" :: allReferences cs else allReferences cs

def allReferences : List Node → List String
  | [] => []
  | n :: ns => n.references ++ allReferences ns

end

theorem allReferences_eq (ns : List Node) : allReferences ns = ns.flatMap references := by
  induction ns with
  | nil => rfl
  | cons n ns ih => rw [allReferences, ih, flatMap_cons]

theorem references_of_kind (h : n.kind ≠ .blockReference) :
    n.references = n.children.flatMap references := by
  cases n with
  | absent => rfl
  | node k l t as cs =>
    have other : k ≠ .blockReference := h
    rw [references, if_neg other, allReferences_eq]
    rfl

theorem references_withTag (n : Node) (word : String) : (n.withTag word).references = n.references := by
  cases n <;> rfl

theorem IsExpression.references (h : n.IsExpression) : n.references = [] := by
  induction h with
  | absent => rfl
  | @node kind _ _ _ children sort _ ih =>
    rw [references_of_kind fun is => ?_]
    · exact flatMap_eq_nil_iff.2 ih
    · rw [show kind = .blockReference from is] at sort
      cases sort

end Node

/-! ## Expressions and statements -/

namespace Scene

open Node (Apt)

variable {b : Scene} (hv : BuildsOperators b.vocabulary) {n : Node}

include hv

/-- **Expressions fit together.** -/
theorem Formed.everywhere {role : Role} (h : b.Formed role n) :
    (n.kind.isAttached = false ∨ role = .argument ∧ n.kind = .namedArgument) ∧
      n.Everywhere (Apt b.vocabulary b.block) := by
  -- only arguments can be named, so a term stands on its own
  have fits {c : Node} (ih : (c.kind.isAttached = false ∨ Role.term = .argument ∧ c.kind = .namedArgument) ∧
      c.Everywhere (Apt b.vocabulary b.block)) : c.Fits b.vocabulary b.block :=
    ⟨ih.1.resolve_right fun no => (by cases no.1), ih.2⟩
  have two {n m : Node} (hn : n.Fits b.vocabulary b.block) (hm : m.Fits b.vocabulary b.block) :
      ∀ c ∈ [n, m], c.Fits b.vocabulary b.block :=
    forall_mem_cons.2 ⟨hn, forall_mem_singleton.2 hm⟩
  induction h with
  | leaf _ _ sort =>
    simp only [mem_cons, not_mem_nil, or_false] at sort
    rcases sort with rfl | rfl | rfl | rfl <;>
      exact ⟨.inl rfl, everywhere_plain rfl (forall_mem_nil _)⟩
  | parent _ inside =>
    exact ⟨.inl rfl, .intro ⟨fun _ is => (by cases is), fun _ => inside, forall_mem_nil _,
      forall_mem_nil _, forall_mem_nil _, fun is => (by cases is)⟩ (forall_mem_nil _)⟩
  | array _ _ ih | hash _ _ _ ih =>
    exact ⟨.inl rfl, everywhere_plain rfl fun c hc => fits (ih c hc)⟩
  | unary _ known _ ih =>
    obtain ⟨unattached, quiet⟩ := Node.Kind.plain_of_operator (.inl (hv.unary _ _ known))
    exact ⟨.inl unattached, everywhere_plain quiet (forall_mem_singleton.2 (fits ih))⟩
  | negation _ _ ih | blockCall _ _ ih =>
    exact ⟨.inl rfl, everywhere_plain rfl (forall_mem_singleton.2 (fits ih))⟩
  | named _ _ ih =>
    exact ⟨.inr ⟨rfl, rfl⟩, everywhere_plain rfl (forall_mem_singleton.2 (fits ih))⟩
  | binary _ known right _ _ ih ih' =>
    have binary := hv.binary _ _ known
    rw [right] at binary
    obtain ⟨unattached, quiet⟩ := Node.Kind.plain_of_operator (.inr binary)
    exact ⟨.inl unattached, everywhere_plain quiet (two (fits ih) (fits ih'))⟩
  | concat _ _ _ ih ih' => exact ⟨.inl rfl, everywhere_plain rfl (two (fits ih) (fits ih'))⟩
  | conditional _ _ _ _ ih ih' ih'' =>
    exact ⟨.inl rfl, everywhere_plain rfl
      (forall_mem_cons.2 ⟨fits ih, two (fits ih') (fits ih'')⟩)⟩
  | positional _ ih => exact ⟨.inl (fits ih).1, ih.2⟩
  | call _ _ known _ ih =>
    exact ⟨.inl rfl, everywhere_call [] (by decide) rfl known (forall_mem_nil _)
      fun c hc => ⟨(ih c hc).1.imp id And.right, (ih c hc).2⟩⟩
  | filter _ _ known _ _ ih ih' | test _ _ known _ _ ih ih' =>
    exact ⟨.inl rfl, everywhere_call [_] (by decide) rfl known
      (forall_mem_singleton.2 (fits ih)) fun c hc => ⟨(ih' c hc).1.imp id And.right, (ih' c hc).2⟩⟩
  | access _ _ _ _ _ ih ih' ih'' =>
    have below {P : Node → Prop} {n m a : Node} (hn : P n) (hm : P m) (ha : P a) :
        ∀ c ∈ [n, m, a], P c :=
      forall_mem_cons.2 ⟨hn, forall_mem_cons.2 ⟨hm, forall_mem_singleton.2 ha⟩⟩
    have object := Node.Kind.ne_of_unattached (fits ih).1
    have item := Node.Kind.ne_of_unattached (fits ih').1
    exact ⟨.inl rfl, .intro (apt_of_own rfl
      (below (fun is => absurd is object.1) (fun is => absurd is item.1) (by rintro ⟨⟩))
      (below (fun is => absurd is object.2.1) (fun is => absurd is item.2.1)
        fun _ a ha => (Node.Kind.ne_of_unattached (fits (ih'' a ha)).1).1)
      (below (fun is => absurd is object.2.2) (fun is => absurd is item.2.2) (by rintro ⟨⟩)))
      (below ih.2 ih'.2 (everywhere_plain rfl fun c hc => fits (ih'' c hc)))⟩

theorem Formed.fits (h : b.Term n) : n.Fits b.vocabulary b.block :=
  ⟨(h.everywhere hv).1.resolve_right fun no => (by cases no.1), (h.everywhere hv).2⟩

omit hv in
theorem fits_loop {v : Vocabulary} {block : Option (String × Bool)}
    {key value sequence condition body otherwise : Node} {l : Int} (hkey : key.Fits v block)
    (hvalue : value.Fits v block) (hsequence : sequence.Fits v block)
    (hcondition : condition.Fits v block) (hbody : body.Fits v block)
    (hotherwise : otherwise.Fits v block) :
    (loopNode l key value sequence condition body otherwise).Fits v block := by
  unfold loopNode
  generalize hflags : loopFlags _ _ _ = flags
  have other := Node.Kind.ne_of_unattached hbody.1
  -- the node that counts the rounds stands after the body, and nowhere else
  have round : (loopRound flags l body).Everywhere (Apt v block) := by
    have members {P : Node → Prop} {m : Node} (hbody : P body) (hm : P m) : ∀ c ∈ [body, m], P c :=
      forall_mem_cons.2 ⟨hbody, forall_mem_singleton.2 hm⟩
    exact .intro (apt_of_own rfl (members (fun is => absurd is other.1) (by rintro ⟨⟩))
      (members (fun is => absurd is other.2.1) (by rintro ⟨⟩))
      (members (fun is => absurd is other.2.2) fun _ => ⟨body, rfl, other.2.2⟩))
      (members hbody.2 (everywhere_plain rfl (forall_mem_nil _)))
  have pass : (loopPass flags l condition body).Fits v block := by
    unfold loopPass
    split
    · exact ⟨rfl, round⟩
    · have inner := fits_body (l := l) (forall_mem_cons.2 ⟨hcondition,
        forall_mem_singleton.2 (⟨rfl, round⟩ : (loopRound flags l body).Fits v block)⟩)
      exact ⟨rfl, everywhere_plain rfl (forall_mem_cons.2 ⟨inner,
        forall_mem_singleton.2 fits_absent⟩)⟩
  have below : ∀ c ∈ [key, value, sequence, loopPass flags l condition body, otherwise],
      c.Fits v block := by
    simp only [forall_mem_cons, not_mem_nil, false_implies, implies_true, and_true]
    exact ⟨hkey, hvalue, hsequence, pass, hotherwise⟩
  have other {c : Node} (hc : c ∈ _) := Node.Kind.ne_of_unattached (below c hc).1
  refine ⟨rfl, .intro ⟨fun _ is => (by cases is), fun is => (by cases is),
    fun _ hc is => absurd is (other hc).1, fun _ hc is => absurd is (other hc).2.1,
    fun _ hc is => absurd is (other hc).2.2, fun _ => ?_⟩ fun c hc => (below c hc).2⟩
  refine ⟨body, .node .loopEnd l "" flags [], ?_, rfl, ?_⟩
  · show (if (loopPass flags l condition body).kind = .branch then
      ((loopPass flags l condition body).child 0).child 1
      else loopPass flags l condition body).children = _
    unfold loopPass
    cases condition.isAbsent <;> rfl
  · subst hflags
    exact forall_mem_cons.2 ⟨rfl, forall_mem_cons.2 ⟨rfl, forall_mem_singleton.2 rfl⟩⟩

/-- **Statements fit together.** -/
theorem Code.fits (h : b.Code n) : n.Fits b.vocabulary b.block := by
  have otherwise {n : Node} {others : List Node} (without : n.Else others)
      (ih : ∀ m ∈ others, m.Fits b.vocabulary b.block) : n.Fits b.vocabulary b.block := by
    cases without with
    | none => exact fits_absent
    | some => exact ih _ mem_cons_self
  have given {n : Node} (h : n = .absent ∨ b.Term n) : n.Fits b.vocabulary b.block :=
    h.elim (fun none => none ▸ fits_absent) fun term => term.fits hv
  have two {n m : Node} {k : Node.Kind} {l : Int} {attrs : List (String × Attr)}
      (attached : k.isAttached = false) (calling : k.isCalling = false)
      (hn : n.Fits b.vocabulary b.block) (hm : m.Fits b.vocabulary b.block) :
      (node k l "" attrs [n, m]).Fits b.vocabulary b.block :=
    ⟨attached, everywhere_plain calling (forall_mem_cons.2 ⟨hn, forall_mem_singleton.2 hm⟩)⟩
  induction h with
  | reference => exact ⟨rfl, everywhere_plain rfl (forall_mem_nil _)⟩
  | composed how _ ih =>
    cases how with
    | text => exact ⟨rfl, everywhere_plain rfl (forall_mem_nil _)⟩
    | print _ shown =>
      exact ⟨rfl, everywhere_plain rfl (forall_mem_singleton.2 (shown.fits hv))⟩
    | loop _ targets items asked without =>
      obtain ⟨hbody, others⟩ := forall_mem_cons.1 ih
      exact fits_loop ((targets.all _ mem_cons_self).1.fits hv)
        ((targets.all _ (mem_cons_of_mem _ mem_cons_self)).1.fits hv) (items.fits hv)
        (given asked) hbody (otherwise without others)
    | branch _ _ asked without =>
      obtain ⟨bodies, others⟩ := forall_mem_append.1 ih
      refine two rfl rfl (fits_body fun c hc => ?_) (otherwise without others)
      obtain ⟨p, hp, hc⟩ := mem_flatMap.1 hc
      simp only [mem_cons, not_mem_nil, or_false] at hc
      rcases hc with rfl | rfl
      · exact (asked p hp).fits hv
      · exact bodies _ (mem_map_of_mem hp)
    | assign _ targets assigned =>
      exact two rfl rfl (fits_body fun c hc => (targets.all c hc).1.fits hv)
        (fits_body fun c hc => (assigned c hc).fits hv)
    | capture _ target =>
      exact two rfl rfl (fits_body fun c hc => (target.all c hc).1.fits hv) (fits_body ih)
    | inclusion _ named bindings => exact two rfl rfl (named.fits hv) (given bindings)
    | row => exact fits_body ih
    | tagged word => exact (ih _ mem_cons_self).withTag word

theorem Composed.references {ms : List Node} (h : b.Composed n ms) :
    n.references = ms.flatMap references := by
  -- expressions refer to no blocks, so that only the bodies are left
  have term {n : Node} (h : b.Term n) : n.references = [] := (h.isExpression hv).references
  have given {n : Node} (h : n = .absent ∨ b.Term n) : n.references = [] :=
    h.elim (fun none => none ▸ rfl) term
  have otherwise {n : Node} {others : List Node} (without : n.Else others) :
      n.references = others.flatMap Node.references := by
    cases without with
    | none => rfl
    | some => exact (append_nil _).symm
  have body {ns : List Node} {l : Int} : (Node.ofBody ns l).references = ns.flatMap Node.references :=
    Node.references_of_kind fun is => (by cases is)
  have terms {ns : List Node} (h : ∀ n ∈ ns, b.Term n) : ns.flatMap Node.references = [] :=
    flatMap_eq_nil_iff.2 fun n hn => term (h n hn)
  have inTurn {pairs : List (Node × Node)} (asked : ∀ p ∈ pairs, b.Term p.1) :
      (Node.inTurn pairs).flatMap Node.references = (pairs.map Prod.snd).flatMap Node.references := by
    rw [Node.inTurn, flatMap_assoc, flatMap_map]
    refine flatMap_congr fun p hp => ?_
    rw [flatMap_cons, term (asked p hp)]
    exact append_nil _
  cases h with
  | text => rfl
  | print _ shown =>
    rw [references_of_kind (by rintro ⟨⟩)]
    exact terms (forall_mem_singleton.2 shown)
  | @loop _ key value _ condition inner _ _ _ targets items asked without =>
    have round {flags : List (String × Attr)} {l : Int} :
        (loopRound flags l inner).references = inner.references := by
      rw [loopRound, body]
      simp [references, allReferences]
    have pass {flags : List (String × Attr)} {l : Int} :
        (loopPass flags l condition inner).references = inner.references := by
      unfold loopPass
      split
      · exact round
      · rw [references_of_kind (by rintro ⟨⟩)]
        simp [plain, children, body, round, given asked, references]
    have hkey := term (targets.all key mem_cons_self).1
    have hvalue := term (targets.all value (mem_cons_of_mem _ mem_cons_self)).1
    rw [loopNode, flaggedLoop, references_of_kind (by rintro ⟨⟩)]
    simp [children, hkey, hvalue, term items, pass, otherwise without]
  | @branch _ pairs _ _ _ _ asked without =>
    rw [references_of_kind (by rintro ⟨⟩)]
    simp [plain, children, body, inTurn asked, otherwise without]
  | assign _ targets assigned =>
    rw [references_of_kind (by rintro ⟨⟩)]
    simp only [children, flatMap_cons, flatMap_nil, body, terms assigned,
      terms fun n hn => (targets.all n hn).1, append_nil]
  | capture _ target =>
    rw [references_of_kind (by rintro ⟨⟩)]
    simp only [children, flatMap_cons, flatMap_nil, body,
      term (target.all _ mem_cons_self).1, append_nil, nil_append]
  | inclusion _ named bindings =>
    rw [references_of_kind (by rintro ⟨⟩)]
    simp only [children, flatMap_cons, flatMap_nil, term named, given bindings, append_nil]
  | row => exact body
  | tagged word =>
    rw [references_withTag]
    exact (append_nil _).symm

end Scene

/-! ## Blocks -/

def referred (ns : List Node) (s : ParseState) : List String :=
  ns.flatMap references ++ s.blocks.flatMap (·.body.references)

structure Listed (ns : List Node) (s : ParseState) : Prop where
  names : (s.blocks.map (·.name)).Nodup
  opened : s.openBlocks.Nodup
  /-- An open block has no body yet. -/
  pending : ∀ name ∈ s.openBlocks, ∃ b ∈ s.blocks, b.name = name ∧ b.body.references = []
  once : (referred ns s).Nodup
  closed : ∀ name ∈ referred ns s, name ∈ s.blocks.map (·.name) ∧ name ∉ s.openBlocks

namespace Listed

variable {ns ms : List Node} {s : ParseState}

theorem imp (h : Listed ns s)
    (fewer : ∃ l, (ms.flatMap references ++ l).Perm (ns.flatMap references)) :
    Listed ms s := by
  obtain ⟨l, perm⟩ := fewer
  have whole : (l ++ referred ms s).Perm (referred ns s) := by
    rw [referred, ← append_assoc]
    exact (perm_append_comm.trans perm).append_right _
  refine ⟨h.names, h.opened, h.pending, ?_, fun name hname => ?_⟩
  · exact (nodup_append.1 (whole.nodup_iff.2 h.once)).2.1
  · exact h.closed name (whole.subset (mem_append_right _ hname))

theorem opening (h : Listed ns s) {name : String} (free : s.blocks.find? (·.name == name) = none)
    (line : Int) : Listed ns (s.opening name line) := by
  have fresh : name ∉ s.blocks.map (·.name) := by
    intro there
    obtain ⟨b, hb, is⟩ := mem_map.1 there
    exact find?_eq_none.1 free b hb (by simp [is])
  have same : referred ns (s.opening name line) = referred ns s := by
    simp [referred, ParseState.opening, references]
  have names : (s.opening name line).blocks.map (·.name) = s.blocks.map (·.name) ++ [name] := by
    simp [ParseState.opening]
  refine ⟨?_, ?_, ?_, same ▸ h.once, fun other hother => ?_⟩
  · rw [names, nodup_append]
    refine ⟨h.names, nodup_cons.2 ⟨not_mem_nil, nodup_nil⟩, fun a ha b hb is => fresh ?_⟩
    rw [← mem_singleton.1 hb, ← is]
    exact ha
  -- a block that is open has its draft already
  · refine nodup_cons.2 ⟨fun there => fresh ?_, h.opened⟩
    obtain ⟨b, hb, is, -⟩ := h.pending name there
    exact is ▸ mem_map_of_mem hb
  · intro other hother
    rcases mem_cons.1 hother with rfl | hother
    · exact ⟨⟨other, line, .absent⟩, mem_append_right _ mem_cons_self, rfl, rfl⟩
    · obtain ⟨b, hb, rest⟩ := h.pending other hother
      exact ⟨b, mem_append_left _ hb, rest⟩
  · rw [same] at hother
    obtain ⟨known, notOpen⟩ := h.closed other hother
    refine ⟨names ▸ mem_append_left _ known, fun there => ?_⟩
    rcases mem_cons.1 there with rfl | there
    · exact fresh known
    · exact notOpen there

theorem perm_closing {blocks : List BlockDraft} {name : String} (body : Node)
    (names : (blocks.map (·.name)).Nodup)
    (pending : ∃ b ∈ blocks, b.name = name ∧ b.body.references = []) :
    ((blocks.map fun b => if b.name == name then { b with body } else b).flatMap
      (·.body.references)).Perm (body.references ++ blocks.flatMap (·.body.references)) := by
  induction blocks with
  | nil => exact absurd pending (by simp)
  | cons b blocks ih =>
    obtain ⟨other, names⟩ := nodup_cons.1 names
    rw [map_cons, flatMap_cons, flatMap_cons]
    by_cases is : b.name = name
    · have rest : (blocks.map fun b => if b.name == name then { b with body } else b) = blocks := by
        refine (map_congr_left fun c hc => ?_).trans (map_id _)
        rw [if_neg]
        · rfl
        · exact fun same => other (mem_map.2 ⟨c, hc, (eq_of_beq same).trans is.symm⟩)
      have empty : b.body.references = [] := by
        obtain ⟨c, hc, named, empty⟩ := pending
        rcases mem_cons.1 hc with rfl | hc
        · exact empty
        · exact absurd (mem_map.2 ⟨c, hc, named.trans is.symm⟩) other
      rw [rest, if_pos (beq_iff_eq.2 is), empty, nil_append]
    · rw [if_neg (by simpa using is)]
      obtain ⟨c, hc, named, empty⟩ := pending
      have later : c ∈ blocks := (mem_cons.1 hc).resolve_left fun same => is (same ▸ named)
      exact ((ih names ⟨c, later, named, empty⟩).append_left _).trans
        (perm_append_comm_assoc _ _ _)

theorem closing (h : Listed (body :: ns) s) {name : String} {rest : List String}
    (inside : s.openBlocks = name :: rest) (l : Int) :
    Listed (.leaf .blockReference l "name" name :: ns) (s.closing name body) := by
  have pending := h.pending name (inside ▸ mem_cons_self)
  have moved := perm_closing body h.names pending
  have names : (s.closing name body).blocks.map (·.name) = s.blocks.map (·.name) := by
    rw [ParseState.closing, map_map]
    refine map_congr_left fun b _ => ?_
    dsimp only [Function.comp]
    split <;> rfl
  obtain ⟨notRest, restOnce⟩ := nodup_cons.1 (inside ▸ h.opened)
  have tail : (s.closing name body).openBlocks = rest := by rw [ParseState.closing, inside]; rfl
  -- what the body refers to moves into the draft, and the reference to the block itself is new
  have whole : (referred (.leaf .blockReference l "name" name :: ns) (s.closing name body)).Perm
      (name :: referred (body :: ns) s) := by
    refine List.Perm.cons name ?_
    rw [referred, flatMap_cons, append_assoc]
    exact (moved.append_left _).trans (perm_append_comm_assoc _ _ _)
  refine ⟨names ▸ h.names, tail ▸ restOnce, ?_, whole.nodup_iff.2 ?_, fun other hother => ?_⟩
  · intro other hother
    rw [tail] at hother
    obtain ⟨b, hb, is, empty⟩ := h.pending other (inside ▸ mem_cons_of_mem _ hother)
    have differs : (b.name == name) = false := by
      rw [is]
      exact beq_false_of_ne fun same => notRest (same ▸ hother)
    refine ⟨b, mem_map.2 ⟨b, hb, ?_⟩, is, empty⟩
    rw [differs]
    rfl
  · refine nodup_cons.2 ⟨fun there => ?_, h.once⟩
    exact (h.closed name there).2 (inside ▸ mem_cons_self)
  · rw [names, tail]
    rcases mem_cons.1 (whole.subset hother) with rfl | there
    · obtain ⟨b, hb, is, -⟩ := pending
      exact ⟨is ▸ mem_map_of_mem hb, notRest⟩
    · obtain ⟨known, notOpen⟩ := h.closed other there
      exact ⟨known, fun no => notOpen (inside ▸ mem_cons_of_mem _ no)⟩

end Listed

def Outline.listed {v : Vocabulary} (hv : BuildsOperators v) (tokens : List Token) : Outline v tokens where
  state _ _ ns s := Listed ns s
  stray := True
  misplaced _ _ := trivial
  perm same h := h.imp ⟨[], by rw [append_nil]; exact (same.flatMap_right _).symm⟩
  gather how h := h.imp ⟨[], by
    rw [append_nil, flatMap_cons, how.references hv, flatMap_append]⟩
  spread kind h := h.imp ⟨[], by
    rw [append_nil, flatMap_cons, references_of_kind fun is => (by cases kind.symm.trans is),
      flatMap_append]⟩
  drop h := h.imp ⟨_, perm_append_comm⟩
  pass _ h := ⟨h.names, h.opened, h.pending, h.once, h.closed⟩
  opened _ _ _ free h := h.opening free _
  closed _ inside _ h := h.closing inside _
  extended _ _ h := ⟨h.names, h.opened, h.pending, h.once, h.closed⟩

/-! ## Templates -/

/-- What statements are read into is never left out. -/
theorem Scene.Code.present {b : Scene} {n : Node} (h : b.Code n) : n.isAbsent = false := by
  induction h with
  | composed how _ ih =>
    cases how with
    | @tagged m word =>
      have inner := ih m mem_cons_self
      cases m with
      | absent => exact inner
      | node => rfl
    | _ => rfl
  | reference => rfl

/-- A module whose body, parent and blocks refer only to what is there. -/
structure WellScoped (v : Vocabulary) (body parent : Node) (blocks : List BlockDraft) : Prop where
  names : (blocks.map (·.name)).Nodup
  known : ∀ name ∈ body.references ++ blocks.flatMap (·.body.references), name ∈ blocks.map (·.name)
  once : (body.references ++ blocks.flatMap (·.body.references)).Nodup
  inBody : body.Fits v none
  inParent : parent.Fits v none
  /-- The content of the parent is asked for in a block of this name, if there is a parent. -/
  inBlocks : ∀ b ∈ blocks, ∃ extending, (extending = true → parent.isAbsent = false) ∧
    b.body.Fits v (some (b.name, extending))
  /-- No block is only announced: its body has been read and is there. -/
  bodies : ∀ b ∈ blocks, b.body.isAbsent = false

/-- **Whatever a parse accepts is well scoped.** -/
theorem Parse.tree_wellScoped {g : Grammar} (hg : g.Sound) {stream : TokenStream} {module : Node}
    (read : tree g stream = .ok module) :
    ∃ body parent blocks, module = .ofModule body parent (blocks.map blockNode) stream.template ∧
      WellScoped g.vocabulary body parent blocks := by
  have nothing : Listed [] { stream, blocks := [], openBlocks := [], parent := none } :=
    ⟨nodup_nil, nodup_nil, forall_mem_nil _, nodup_nil, forall_mem_nil _⟩
  have ended := (Outline.listed hg.operators _).stored.tree_ends hg.tags rfl stream rfl
    ⟨Outline.stored_nothing stream, nothing⟩
  rw [read] at ended
  cases ended with
  | ok h =>
    obtain ⟨body, s, is, code, outer, stored, listed⟩ := h
    have flat : referred [body] s = body.references ++ s.blocks.flatMap (·.body.references) := by
      simp [referred]
    have given : (s.parent.getD .absent).Fits g.vocabulary none ∧
        (s.parent.isSome = true → (s.parent.getD .absent).isAbsent = false) := by
      cases hparent : s.parent with
      | none => exact ⟨Node.fits_absent, fun no => (by cases no)⟩
      | some n =>
        have term := stored.parent n hparent
        refine ⟨term.fits hg.operators, fun _ => ?_⟩
        cases term <;> rfl
    -- No block is open at the end, so every block that is stored has been closed with some code.
    have closed (b : BlockDraft) (hb : b ∈ s.blocks) := (stored.blocks b hb).2.2.resolve_left
      (outer ▸ not_mem_nil)
    refine ⟨body, _, s.blocks, is, stored.names, ?_, flat ▸ listed.once, code.fits hg.operators, given.1,
      fun b hb => ?_, fun b hb => ?_⟩
    · exact fun name hname => (listed.closed name (flat.symm ▸ hname)).1
    · obtain ⟨extending, parent, code⟩ := closed b hb
      exact ⟨extending, fun is => given.2 (parent is), code.fits hg.operators⟩
    · obtain ⟨_, _, code⟩ := closed b hb
      exact code.present

/-- `{% extends "p" %}{% block a %}{% for x in xs %}{{ parent() }}{% endfor %}{% endblock %}` -/
theorem Parse.tree_wellScoped_parent :
    ∃ stream module, tree (Registry.ofExtensions [.core]).1.grammar stream = .ok module ∧
      ∃ body parent blocks, module = .ofModule body parent (blocks.map blockNode) stream.template ∧
        WellScoped (Registry.ofExtensions [.core]).1.grammar.vocabulary body parent blocks := by
  let stream : TokenStream := .ofTokens #[⟨.blockStart, "", 1⟩, ⟨.name, "extends", 1⟩, ⟨.string, "p", 1⟩,
    ⟨.blockEnd, "", 1⟩, ⟨.blockStart, "", 1⟩, ⟨.name, "block", 1⟩, ⟨.name, "a", 1⟩, ⟨.blockEnd, "", 1⟩,
    ⟨.blockStart, "", 1⟩, ⟨.name, "for", 1⟩, ⟨.name, "x", 1⟩, ⟨.operator, "in", 1⟩, ⟨.name, "xs", 1⟩,
    ⟨.blockEnd, "", 1⟩, ⟨.printStart, "", 1⟩, ⟨.name, "parent", 1⟩, ⟨.punctuation, "(", 1⟩,
    ⟨.punctuation, ")", 1⟩, ⟨.printEnd, "", 1⟩, ⟨.blockStart, "", 1⟩, ⟨.name, "endfor", 1⟩,
    ⟨.blockEnd, "", 1⟩, ⟨.blockStart, "", 1⟩, ⟨.name, "endblock", 1⟩, ⟨.blockEnd, "", 1⟩] "t"
  have accepted : (tree (Registry.ofExtensions [.core]).1.grammar stream).isOk = true := by
    decide +kernel
  cases read : tree (Registry.ofExtensions [.core]).1.grammar stream with
  | error _ =>
    rw [read] at accepted
    cases accepted
  | ok module => exact ⟨stream, module, read, tree_wellScoped Registry.grammar_core_sound read⟩

end Stencil
