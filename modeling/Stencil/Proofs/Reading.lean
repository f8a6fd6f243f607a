import Stencil.Proofs.Outline

/-!
# Reading builds well-made trees

A parser stops in one of two ways: with a tree all of whose nodes are complete and in which
expressions and statements stand where they belong, or with a complaint about a line of the template
it reads (`Parse.tree_ends`).

Both follow from how trees are put together: an expression is well made if the expressions in it are
(`Scene.Formed.proper`), and a statement if the statements and expressions in it are
(`Scene.Code.proper`).
-/

namespace Stencil

open List Node

/-! ## Expressions -/

namespace Parse

def isBinarySide : RightSide → Bool
  | .operand kind => kind.isBinary
  | .test _ => true

structure BuildsOperators (v : Vocabulary) : Prop where
  unary : ∀ name op, v.unary? name = some op → op.kind.isUnary = true
  binary : ∀ name op, v.binary? name = some op → isBinarySide op.right = true

end Parse

namespace Scene

variable {b : Scene} {last : Nat} (hv : Parse.BuildsOperators b.vocabulary)
  (within : ∀ t ∈ b.tokens, OnLine last t.line)

include within in
theorem Line.onLine {l : Int} (h : b.Line l) : OnLine last l := by
  obtain ⟨t, there, rfl⟩ := h
  exact within t there

include hv

/-- **No statement stands inside an expression.** -/
theorem Formed.isExpression {role : Role} {n : Node} (h : b.Formed role n) : n.IsExpression := by
  induction h with
  | leaf _ _ sort =>
    refine isExpression_leaf ?_ _ _
    simp only [mem_cons, not_mem_nil, or_false] at sort
    rcases sort with rfl | rfl | rfl | rfl <;> rfl
  | parent => exact isExpression_leaf rfl _ _
  | array _ _ ih | hash _ _ _ ih => exact .node rfl ih
  | unary _ known _ ih =>
    exact isExpression_single (Node.Kind.isStatement_of_isUnary (hv.unary _ _ known)) ih
  | negation _ _ ih | blockCall _ _ ih | named _ _ ih => exact isExpression_single rfl ih
  | binary _ known right _ _ first second =>
    have binary := hv.binary _ _ known
    rw [right] at binary
    exact isExpression_double (Node.Kind.isStatement_of_isBinary binary) first second
  | concat _ _ _ first second => exact isExpression_double rfl first second
  | conditional _ _ _ _ asked first second => exact isExpression_triple rfl asked first second
  | positional _ ih => exact ih
  | call _ _ _ _ ih => exact isExpression_single rfl (.node rfl ih)
  | filter _ _ _ _ _ operand args | test _ _ _ _ _ operand args =>
    exact isExpression_double rfl operand (.node rfl args)
  | access _ _ _ _ _ object item args =>
    exact isExpression_triple rfl object item (.node rfl args)

theorem isExpression_of_given {n : Node} (h : n = .absent ∨ b.Term n) : n.IsExpression :=
  h.elim (fun none => none ▸ .absent) (Formed.isExpression hv)

include within

theorem Formed.proper {role : Role} {n : Node} (h : b.Formed role n) : n.Proper last := by
  have on {l : Int} (there : b.Line l) := there.onLine within
  induction h with
  | leaf there complete => exact proper_leaf (on there) complete
  | parent there => exact proper_leaf (on there) rfl
  | array there _ ih => exact proper_row (on there) (.inr (.inl rfl)) ih
  | hash there _ even ih => exact proper_hash (on there) ih even
  | unary there known _ ih => exact proper_unary (on there) (hv.unary _ _ known) ih
  | negation there _ ih => exact proper_unary (on there) rfl ih
  | binary there known right _ _ first second =>
    have binary := hv.binary _ _ known
    rw [right] at binary
    exact proper_binary (on there) binary first second
  | concat there _ _ first second => exact proper_binary (on there) rfl first second
  | conditional there _ _ _ asked first second =>
    exact proper_filled (on there) (.filled asked (.filled first (.filled second .nil))) rfl
  | blockCall there _ ih | named there _ ih =>
    exact proper_filled (on there) (.filled ih .nil) rfl
  | positional _ ih => exact ih
  | call there there' _ _ ih =>
    exact proper_filled (on there) (.only (proper_arguments (on there') ih) .nil) rfl
  | filter there there' _ _ _ operand args | test there there' _ _ _ operand args =>
    have args := proper_arguments (on there') args
    exact proper_filled (on there) (.filled operand (.only args .nil)) rfl
  | access there there' _ _ _ object item args =>
    have args := proper_arguments (on there') args
    exact proper_filled (on there) (.filled object (.filled item (.only args .nil))) rfl

/-! ## Statements -/

omit within in
/-- **A statement has expressions and statements where its kind asks for them.** -/
theorem Code.isStatement {n : Node} (h : b.Code n) : n.IsStatement := by
  have term {n : Node} (h : b.Term n) : n.IsExpression := h.isExpression hv
  induction h with
  | reference => exact .blockReference _ _ _
  | composed how _ ih =>
    cases how with
    | text => exact .text _ _ _
    | print _ shown => exact .print (term shown)
    | loop _ _ items asked without =>
      obtain ⟨body, others⟩ := forall_mem_cons.1 ih
      refine isStatement_loop (term items) (isExpression_of_given hv asked) body ?_
      cases without with
      | none => exact .absent
      | some => exact others _ mem_cons_self
    | branch _ some asked without =>
      obtain ⟨bodies, others⟩ := forall_mem_append.1 ih
      refine .branch some (fun p hp => term (asked p hp)) (forall_mem_map.1 bodies) ?_
      cases without with
      | none => exact .absent
      | some => exact others _ mem_cons_self
    | assign _ targets assigned =>
      exact .assign rfl targets.some (fun n hn => ⟨term (targets.all n hn).1, (targets.all n hn).2⟩)
        fun v hv => term (assigned v hv)
    | capture _ target =>
      have target := target.all _ mem_cons_self
      exact .capture rfl ⟨term target.1, target.2⟩ (ih _ mem_cons_self)
    | inclusion _ named given => exact .inclusion (term named) (isExpression_of_given hv given)
    | row => exact .body ih
    | tagged word => exact isStatement_withTag (ih _ mem_cons_self) word

theorem Code.proper (some : 1 ≤ last) {n : Node} (h : b.Code n) : n.Proper last := by
  have on {t : Token} (there : t ∈ b.tokens) : OnLine last t.line := within t there
  have term {n : Node} (h : b.Term n) : n.Proper last := h.proper hv within
  have targets {ns : List Node} (h : b.AreTargets ns) : ∀ n ∈ ns, n.Proper last ∧ n.kind = .target :=
    fun n hn => ⟨term (h.all n hn).1, (h.all n hn).2⟩
  induction h with
  | reference site name => exact proper_leaf (on site.mem) rfl
  | composed how _ ih =>
    cases how with
    | text there => exact proper_leaf (on there) rfl
    | print site shown =>
      exact proper_filled (on (site.elim (·.1) (·.mem))) (.filled (term shown) .nil) rfl
    | loop site names items asked without =>
      obtain ⟨body, others⟩ := forall_mem_cons.1 ih
      refine proper_loop (on site.mem) (targets names _ mem_cons_self)
        (targets names _ (mem_cons_of_mem _ mem_cons_self)) (term items)
        (asked.imp (congrArg isAbsent) term) body ?_
      cases without with
      | none => exact .inl rfl
      | some => exact .inr (others _ mem_cons_self)
    | branch site _ asked without =>
      obtain ⟨bodies, others⟩ := forall_mem_append.1 ih
      refine proper_branch (on site.mem) ?_ (even_length_inTurn _) ?_
      · exact forall_mem_inTurn fun p hp => ⟨term (asked p hp), forall_mem_map.1 bodies p hp⟩
      · cases without with
        | none => exact .absent
        | some => exact (others _ mem_cons_self).wellMade
    | assign site names assigned same =>
      exact proper_assign (on site.mem) false (targets names) (fun v hv => term (assigned v hv))
        same fun no => (nomatch no)
    | capture site target =>
      exact proper_assign (on site.mem) true (targets target)
        (forall_mem_singleton.2 (ih _ mem_cons_self)) rfl fun _ => rfl
    | inclusion site named given =>
      refine proper_filled (on site.mem) (.filled (term named) (.any ?_ .nil)) rfl
      exact given.elim (fun none => none ▸ .absent) fun given => (term given).wellMade
    | row there =>
      refine proper_ofBody ?_ ih
      exact there.elim (·.onLine within) fun is => is ▸ onLine_one some
    | tagged word => exact (ih _ mem_cons_self).withTag word

end Scene

/-! ## Templates -/

/-- A language of the six tags, whose operators build nodes of operators. -/
structure Grammar.Sound (g : Grammar) : Prop where
  operators : Parse.BuildsOperators g.vocabulary
  tags : ∀ tag ∈ g.tags, tag ∈ Parse.coreTags

namespace Parse

variable {last : Nat} {name : String} {g : Grammar}

theorem within_closed (some : 1 ≤ last) {tokens : Array Token}
    (h : Scanner.TokensWithin last tokens) :
    Scanner.TokensWithin last (TokenStream.closed tokens) := by
  unfold TokenStream.closed
  split
  · next t back =>
    split
    · exact h
    · exact h.push (h.onLine t (Array.mem_of_back? back)) fun no => (nomatch no)
  · exact (Scanner.tokensWithin_empty last).push (onLine_one some) fun no => (nomatch no)

/-- **A template has a tree in which nothing is missing or out of place, or something is wrong on a
line of it.** -/
theorem tree_ends (hg : g.Sound) (some : 1 ≤ last) {tokens : Array Token}
    (htokens : Scanner.TokensWithin last tokens) :
    Ends (OnLine last) True name (fun module => module.Whole last name ∧ module.IsSorted)
      (tree g (.ofTokens tokens name)) := by
  have closed := within_closed some htokens
  have within : ∀ t ∈ (TokenStream.closed tokens).toList, OnLine last t.line :=
    fun t ht => closed.onLine t (Array.mem_toList_iff.1 ht)
  have read := (Outline.any g.vocabulary _).stored.tree_ends hg.tags rfl (.ofTokens tokens name) rfl
    ⟨Outline.stored_nothing _, trivial⟩
  refine read.mono (fun _ h => h.onLine within) ?_
  rintro module ⟨body, s, rfl, code, outer, stored, -⟩
  -- the scenes of the body and of the blocks differ in the open block only
  have made {b : Scene} (same : b.vocabulary = g.vocabulary ∧ b.tokens = _) {n : Node} (h : b.Code n) :
      n.Proper last ∧ n.IsStatement :=
    ⟨h.proper (same.1 ▸ hg.operators) (same.2 ▸ within) some, h.isStatement (same.1 ▸ hg.operators)⟩
  have hbody := made ⟨rfl, rfl⟩ code
  have blocks : ∀ b ∈ s.blocks.map blockNode, b.kind = .block ∧ b.WellMade last ∧ b.IsStatement := by
    intro b hb
    obtain ⟨draft, hdraft, rfl⟩ := mem_map.1 hb
    obtain ⟨⟨t, site, line⟩, ⟨u, there, kind, word⟩, state⟩ := stored.blocks draft hdraft
    rw [outer] at state
    obtain ⟨_, _, code⟩ := state.resolve_left not_mem_nil
    have inner := made ⟨rfl, rfl⟩ code
    have short : OneLine draft.name :=
      word ▸ Scanner.oneLine_of_isName (closed.named u (Array.mem_toList_iff.1 there) kind)
    exact ⟨rfl, (proper_filled (line ▸ within t site.mem) (.filled inner.1 .nil) rfl).wellMade,
      .block rfl short inner.2⟩
  have parent : (s.parent.getD .absent).WellMade last ∧ (s.parent.getD .absent).IsExpression := by
    cases found : s.parent with
    | none => exact ⟨.absent, .absent⟩
    | some n =>
      have term := stored.parent n found
      exact ⟨(term.proper hg.operators within).wellMade, term.isExpression hg.operators⟩
  exact ⟨⟨body, _, _, rfl, hbody.1, parent.1, fun b hb => ⟨(blocks b hb).1, (blocks b hb).2.1⟩⟩,
    .intro hbody.2 parent.2 fun b hb => ⟨(blocks b hb).2.2, (blocks b hb).1⟩⟩

end Parse
end Stencil
