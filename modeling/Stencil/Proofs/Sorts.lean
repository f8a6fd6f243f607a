import Stencil.Proofs.WellMade

/-!
# Expressions and statements

A tree that has been read has two sorts of nodes. No statement stands inside an expression
(`Node.IsExpression`), and a statement has expressions and statements for its children where its kind
asks for them (`Node.IsStatement`). The names of blocks stand on one line.

Escaping changes neither sort (`Autoescape.isSorted_apply`).
-/

namespace Stencil

open List

namespace Node

/-! ## The two sorts -/

def Kind.isStatement : Kind → Bool
  | .module | .body | .text | .print | .loop | .loopEnd | .branch | .block | .blockReference
  | .assign | .inclusion => true
  | _ => false

variable {k kind : Kind} {attrs : List (String × Attr)} {n : Node}

theorem Kind.isStatement_of_isUnary (h : k.isUnary = true) : k.isStatement = false := by
  cases k <;> simp [isUnary] at h <;> rfl

theorem Kind.isStatement_of_isBinary (h : k.isBinary = true) : k.isStatement = false := by
  cases k <;> simp [isBinary] at h <;> rfl

/-- A tree in which no statement stands. -/
inductive IsExpression : Node → Prop
  | absent : IsExpression .absent
  | node {kind line tag attrs children} (sort : kind.isStatement = false)
    (below : ∀ c ∈ children, IsExpression c) : IsExpression (.node kind line tag attrs children)

def inTurn (pairs : List (Node × Node)) : List Node := pairs.flatMap fun p => [p.1, p.2]

/-- A statement, with expressions and statements where its kind asks for them. -/
inductive IsStatement : Node → Prop
  | absent : IsStatement .absent
  | body {line tag attrs nodes} (inner : ∀ n ∈ nodes, IsStatement n) :
    IsStatement (.node .body line tag attrs nodes)
  | text (line : Int) (tag : String) (attrs : List (String × Attr)) :
    IsStatement (.node .text line tag attrs [])
  | print {line tag attrs expr} (shown : expr.IsExpression) :
    IsStatement (.node .print line tag attrs [expr])
  | blockReference (line : Int) (tag : String) (attrs : List (String × Attr)) :
    IsStatement (.node .blockReference line tag attrs [])
  | inclusion {line tag attrs template bindings} (named : template.IsExpression)
    (given : bindings.IsExpression) :
    IsStatement (.node .inclusion line tag attrs [template, bindings])
  | loopEnd (line : Int) (tag : String) (attrs : List (String × Attr)) :
    IsStatement (.node .loopEnd line tag attrs [])
  | loop {line tag attrs key value sequence body otherwise} (items : sequence.IsExpression)
    (round : IsStatement body) (without : IsStatement otherwise) :
    IsStatement (.node .loop line tag attrs [key, value, sequence, body, otherwise])
  | branch {line line' tag attrs pairs otherwise} (some : pairs ≠ [])
    (conditions : ∀ p ∈ pairs, p.1.IsExpression) (bodies : ∀ p ∈ pairs, IsStatement p.2)
    (without : IsStatement otherwise) :
    IsStatement (.node .branch line tag attrs [ofBody (inTurn pairs) line', otherwise])
  | assign {line line₁ line₂ tag attrs names values}
    (capture : attrs.lookup "capture" = some (.bool false)) (some : names ≠ [])
    (targets : ∀ n ∈ names, n.IsExpression ∧ n.kind = .target)
    (assigned : ∀ v ∈ values, v.IsExpression) :
    IsStatement (.node .assign line tag attrs [ofBody names line₁, ofBody values line₂])
  | capture {line line₁ line₂ tag attrs name body}
    (capture : attrs.lookup "capture" = some (.bool true))
    (target : name.IsExpression ∧ name.kind = .target) (shown : IsStatement body) :
    IsStatement (.node .assign line tag attrs [ofBody [name] line₁, ofBody [body] line₂])
  | block {line tag attrs name body} (named : attrs.lookup "name" = some (.text name))
    (short : OneLine name) (shown : IsStatement body) :
    IsStatement (.node .block line tag attrs [body])

/-- A whole template: a body, maybe the expression of a parent, and blocks. -/
inductive IsSorted : Node → Prop
  | intro {line line' tag attrs body parent blocks} (shown : body.IsStatement)
    (extended : parent.IsExpression) (defined : ∀ b ∈ blocks, b.IsStatement ∧ b.kind = .block) :
    IsSorted (.node .module line tag attrs [body, parent, ofBody blocks line'])

theorem isExpression_leaf (sort : kind.isStatement = false) (line : Int)
    (attrs : List (String × Attr)) : IsExpression (.node kind line "" attrs []) :=
  .node sort (forall_mem_nil _)

theorem isExpression_single (sort : kind.isStatement = false) {line : Int} (h : n.IsExpression) :
    IsExpression (.node kind line "" attrs [n]) :=
  .node sort (forall_mem_singleton.2 h)

theorem isExpression_double (sort : kind.isStatement = false) {line : Int} {m : Node}
    (hn : n.IsExpression) (hm : m.IsExpression) : IsExpression (.node kind line "" attrs [n, m]) :=
  .node sort (forall_mem_cons.2 ⟨hn, forall_mem_singleton.2 hm⟩)

theorem isExpression_triple (sort : kind.isStatement = false) {line : Int} {m o : Node}
    (hn : n.IsExpression) (hm : m.IsExpression) (ho : o.IsExpression) :
    IsExpression (.node kind line "" attrs [n, m, o]) :=
  .node sort (forall_mem_cons.2 ⟨hn, forall_mem_cons.2 ⟨hm, forall_mem_singleton.2 ho⟩⟩)

theorem isStatement_withTag (h : n.IsStatement) (name : String) : (n.withTag name).IsStatement := by
  cases h with
  | absent => exact .absent
  | body inner => exact .body inner
  | text => exact .text _ _ _
  | print shown => exact .print shown
  | blockReference => exact .blockReference _ _ _
  | inclusion named given => exact .inclusion named given
  | loopEnd => exact .loopEnd _ _ _
  | loop items round without => exact .loop items round without
  | branch some conditions bodies without => exact .branch some conditions bodies without
  | assign capture some targets assigned => exact .assign capture some targets assigned
  | capture capture target shown => exact .capture capture target shown
  | block named short shown => exact .block named short shown

theorem isStatement_loop {line : Int} {key value sequence condition body otherwise : Node}
    (items : sequence.IsExpression) (asked : condition.IsExpression) (round : body.IsStatement)
    (without : otherwise.IsStatement) :
    (Parse.loopNode line key value sequence condition body otherwise).IsStatement := by
  refine .loop items ?_ without
  have round (flags : List (String × Attr)) : (Parse.loopRound flags line body).IsStatement :=
    .body (forall_mem_cons.2 ⟨round, forall_mem_singleton.2 (.loopEnd _ _ _)⟩)
  unfold Parse.loopPass
  split
  · exact round _
  · have only : [(condition, Parse.loopRound (Parse.loopFlags (body.names "loop")
        (!condition.isAbsent) (!otherwise.isAbsent)) line body)] ≠ [] := cons_ne_nil _ _
    exact .branch only (forall_mem_singleton.2 asked) (forall_mem_singleton.2 (round _))
      .absent

theorem forall_mem_inTurn {p : Node → Prop} {pairs : List (Node × Node)}
    (h : ∀ q ∈ pairs, p q.1 ∧ p q.2) : ∀ n ∈ inTurn pairs, p n := by
  intro n hn
  obtain ⟨q, hq, inside⟩ := mem_flatMap.1 hn
  rcases mem_cons.1 inside with rfl | inside
  · exact (h q hq).1
  · exact mem_singleton.1 inside ▸ (h q hq).2

theorem even_length_inTurn (pairs : List (Node × Node)) : (inTurn pairs).length % 2 = 0 := by
  induction pairs with
  | nil => rfl
  | cons p pairs ih =>
    simp only [inTurn, flatMap_cons, length_append, length_cons,
      length_nil] at ih ⊢
    omega

end Node

/-! ## Escaping -/

namespace Autoescape

variable (strategy : String)

/-- There is nothing to escape inside an expression. -/
theorem apply_of_isExpression {n : Node} (h : n.IsExpression) : apply strategy n = n := by
  induction h with
  | absent => rfl
  | @node kind line tag attrs children sort below ih =>
    have other : ¬(kind == .print) = true := by
      intro is
      rw [eq_of_beq is] at sort
      cases sort
    rw [apply, if_neg other, Program.applyAll_eq_map, map_congr_left ih, map_id']

theorem isExpression_printed {expr : Node} (h : expr.IsExpression) :
    (if isSafe expr then expr else escaped strategy expr).IsExpression := by
  split
  · exact h
  · exact Node.isExpression_double rfl h
      (Node.isExpression_single rfl (Node.isExpression_leaf rfl _ _))

theorem apply_inTurn {pairs : List (Node × Node)} (conditions : ∀ p ∈ pairs, p.1.IsExpression) :
    (Node.inTurn pairs).map (apply strategy) =
      Node.inTurn (pairs.map fun p => (p.1, apply strategy p.2)) := by
  induction pairs with
  | nil => rfl
  | cons p pairs ih =>
    obtain ⟨hp, hpairs⟩ := forall_mem_cons.1 conditions
    simp only [Node.inTurn, flatMap_cons, map_append, map_cons, map_nil] at ih ⊢
    rw [ih hpairs, apply_of_isExpression strategy hp]

theorem isStatement_apply {n : Node} (h : n.IsStatement) : (apply strategy n).IsStatement := by
  induction h with
  | absent => exact .absent
  | @body line tag attrs nodes inner ih =>
    change Node.IsStatement (.node .body line tag attrs (applyAll strategy nodes))
    rw [Program.applyAll_eq_map]
    refine .body fun n hn => ?_
    obtain ⟨m, hm, rfl⟩ := mem_map.1 hn
    exact ih m hm
  | text => exact .text _ _ _
  | print shown => exact .print (isExpression_printed strategy shown)
  | blockReference => exact .blockReference _ _ _
  | inclusion named given =>
    refine .inclusion ?_ ?_
    · rwa [apply_of_isExpression strategy named]
    · rwa [apply_of_isExpression strategy given]
  | loopEnd => exact .loopEnd _ _ _
  | loop items _ _ round without =>
    refine .loop ?_ round without
    rwa [apply_of_isExpression strategy items]
  | @branch line line' tag attrs pairs otherwise some conditions bodies _ ih without =>
    change Node.IsStatement (.node .branch line tag attrs
      [.node .body line' "" [] (applyAll strategy (Node.inTurn pairs)), apply strategy otherwise])
    -- conditions are expressions, which escaping leaves alone
    rw [Program.applyAll_eq_map, apply_inTurn strategy conditions]
    refine .branch (by simpa using some) ?_ ?_ without
    · exact forall_mem_map.2 conditions
    · exact forall_mem_map.2 ih
  | @assign line line₁ line₂ tag attrs names values capture some targets assigned =>
    change Node.IsStatement (.node .assign line tag attrs
      [.node .body line₁ "" [] (applyAll strategy names),
        .node .body line₂ "" [] (applyAll strategy values)])
    rw [Program.applyAll_eq_map, Program.applyAll_eq_map,
      map_congr_left fun n hn => apply_of_isExpression strategy (targets n hn).1,
      map_congr_left fun v hv => apply_of_isExpression strategy (assigned v hv), map_id',
      map_id']
    exact .assign capture some targets assigned
  | @capture line line₁ line₂ tag attrs name body capture target _ shown =>
    change Node.IsStatement (.node .assign line tag attrs
      [Node.ofBody [apply strategy name] line₁, Node.ofBody [apply strategy body] line₂])
    rw [apply_of_isExpression strategy target.1]
    exact .capture capture target shown
  | block named short _ shown => exact .block named short shown

theorem isSorted_apply {n : Node} (h : n.IsSorted) : (apply strategy n).IsSorted := by
  obtain @⟨line, line', tag, attrs, body, parent, blocks, shown, extended, defined⟩ := h
  change Node.IsSorted (.node .module line tag attrs
    [apply strategy body, apply strategy parent, .node .body line' "" [] (applyAll strategy blocks)])
  rw [Program.applyAll_eq_map, apply_of_isExpression strategy extended]
  refine .intro (isStatement_apply strategy shown) extended fun b hb => ?_
  obtain ⟨block, hblock, rfl⟩ := mem_map.1 hb
  exact ⟨isStatement_apply strategy (defined block hblock).1,
    (kind_apply strategy block).trans (defined block hblock).2⟩

end Autoescape

end Stencil
