import Stencil.Environment
import Stencil.Proofs.Markup

/-!
# Programs that escape what they print

With a strategy of escaping, every print of a template either goes through the filter `escape` or is
one that shows no markup by itself. Here that is followed from the tree of a template to its program.
-/

namespace Stencil

open List Autoescape

/-! ## Harmless trees -/

namespace Node

/-- Whether an expression may be printed although the way it is written keeps it from being escaped:
a constant has to be clean, and the last filter must not be `raw`. -/
def printable (expr : Node) : Bool :=
  match expr.kind with
  | .constant => match expr.attr? "value" with
    | some (.text s) => decide (Clean s)
    | _ => true
  | .stringConstant => decide (Clean (expr.text "value"))
  | .filter => expr.text "name" != "raw"
  | _ => true

mutual

/-- Whether a tree shows no markup by itself: every text in it is clean, and whatever is printed may
be. The conditions and bodies of a branch have to stand where they are read, in a body. -/
def harmless : Node → Bool
  | absent => true
  | node k l t as cs =>
    (k != .text || decide (Clean ((node k l t as cs).text "data"))) &&
    (k != .print || ((node k l t as cs).child 0).printable) &&
    (k != .branch || ((node k l t as cs).child 0).kind == .body) && allHarmless cs

/-- Whether several trees show no markup by themselves. -/
def allHarmless : List Node → Bool
  | [] => true
  | n :: ns => n.harmless && allHarmless ns

end

/-- A tree with the shape of a whole template: a body, a parent and blocks. -/
def IsTemplate (module : Node) : Prop :=
  ∃ (body parent : Node) (drafts : List BlockDraft) (name : String),
    module = ofModule body parent (drafts.map Parse.blockNode) name

theorem harmless_node {k : Kind} {l : Int} {t : String} {as : List (String × Attr)} {cs : List Node}
    (h : (node k l t as cs).harmless = true) :
    (k = .text → Clean ((node k l t as cs).text "data")) ∧
      (k = .print → ((node k l t as cs).child 0).printable = true) ∧
      (k = .branch → ((node k l t as cs).child 0).kind = .body) ∧ allHarmless cs = true := by
  simp only [harmless, Bool.and_eq_true_iff, Bool.or_eq_true_iff, bne_iff_ne, beq_iff_eq,
    decide_eq_true_eq] at h
  obtain ⟨⟨⟨htext, hprint⟩, hbranch⟩, hcs⟩ := h
  exact ⟨fun is => htext.resolve_left (absurd is), fun is => hprint.resolve_left (absurd is),
    fun is => hbranch.resolve_left (absurd is), hcs⟩

end Node

/-! ## Guarded programs -/

/-- What a print may be given: something escaped, what a block shows, or a clean constant. -/
def Expr.Guarded : Expr → Prop
  | .constant c => ∀ s, c = .text s → Clean s
  | .filter name _ _ _ _ _ => name = "escape" ∨ name = "e"
  | .parentBlock _ => True
  | .blockCall _ => True
  | _ => False

/-- Whatever a statement shows is clean or escaped. What is captured is not shown. -/
def Stmt.Guarded : Stmt → Prop
  | .seq first second => first.Guarded ∧ second.Guarded
  | .text data => Clean data
  | .print e _ => e.Guarded
  | .branch _ yes no _ => yes.Guarded ∧ no.Guarded
  | .loop _ _ _ _ body otherwise _ _ _ => body.Guarded ∧ otherwise.Guarded
  | _ => True

/-- Whatever a template shows is clean or escaped. -/
structure Template.Guarded (t : Template) : Prop where
  body : t.body.Guarded
  blocks : ∀ b ∈ t.blocks, b.2.Guarded

namespace Autoescape

open Node

variable (strategy : String)

theorem kind_apply (n : Node) : (apply strategy n).kind = n.kind := by
  cases n with
  | absent => rfl
  | node k l t as cs =>
    rw [apply]
    split <;> rfl

theorem isSafe_node {k : Kind} {l : Int} {t : String} {as : List (String × Attr)} {cs : List Node}
    (h : isSafe (.node k l t as cs) = true) :
    k = .constant ∨ k = .stringConstant ∨ k = .parent ∨ k = .blockCall ∨
      k = .filter ∧ (Node.node k l t as cs).text "name" ∈ safeFilters := by
  cases k <;> first | cases h | skip
  · exact Or.inl rfl
  · exact Or.inr (Or.inl rfl)
  · exact Or.inr (Or.inr (Or.inr (Or.inr ⟨rfl, contains_iff_mem.1 h⟩)))
  · exact Or.inr (Or.inr (Or.inl rfl))
  · exact Or.inr (Or.inr (Or.inr (Or.inl rfl)))

end Autoescape

namespace Program

/-! ## From trees to programs -/

/-- Statements made from a part are guarded, and so are those made from the parts below it, except
below a print. -/
inductive Part.Guarded : Part → Prop
  | part {node : Node} {expr : Listing.Care → Option Expr} {stmt : Step} {parts : List Part}
      (shows : ∀ mark code after, stmt mark = some (code, after) → code.Guarded)
      (below : node.kind ≠ .print → ∀ p ∈ parts, Part.Guarded p) : Guarded (.part node expr stmt parts)

namespace Part

theorem guarded_none : none.Guarded := by
  refine .part (fun mark code after h => ?_) fun _ _ h => absurd h not_mem_nil
  cases h
  trivial

theorem Guarded.stmt {p : Part} (h : p.Guarded) {mark after : Int} {code : Stmt}
    (made : p.stmt mark = some (code, after)) : code.Guarded := by
  cases h with
  | part shows below => exact shows mark code after made

theorem Guarded.parts {p : Part} (h : p.Guarded) (hkind : p.node.kind ≠ .print) :
    ∀ q ∈ p.parts, q.Guarded := by
  cases h with
  | part shows below => exact below hkind

theorem guarded_getD {ps : List Part} (h : ∀ p ∈ ps, p.Guarded) (i : Nat) :
    ((ps[i]?).getD none).Guarded := by
  cases hp : ps[i]? with
  | none => exact guarded_none
  | some p => exact h p (mem_of_getElem? hp)

theorem Guarded.child {p : Part} (h : p.Guarded) (hkind : p.node.kind ≠ .print) (i : Nat) :
    (p.child i).Guarded :=
  guarded_getD (h.parts hkind) i

end Part

theorem guarded_sequence {ps : List Part} (hps : ∀ p ∈ ps, p.Guarded) :
    ∀ {mark after : Int} {code : Stmt}, sequence ps mark = some (code, after) → code.Guarded := by
  induction ps with
  | nil =>
    intro mark after code made
    cases made
    trivial
  | cons p ps ih =>
    intro mark after code made
    obtain ⟨hp, hps⟩ := forall_mem_cons.1 hps
    simp only [sequence, bind, Option.bind_eq_some_iff, pure, Option.some.injEq, Prod.exists]
      at made
    obtain ⟨first, _, hfirst, rest, _, hrest, made⟩ := made
    cases made
    exact ⟨hp.stmt hfirst, ih hps hrest⟩

theorem guarded_branches {otherwise : Step}
    (hotherwise : ∀ mark code after, otherwise mark = some (code, after) → code.Guarded) :
    ∀ {ps : List Part}, (∀ p ∈ ps, p.Guarded) → ∀ {mark after : Int} {code : Stmt},
      branches otherwise ps mark = some (code, after) → code.Guarded
  | [], _, mark, after, code, made => hotherwise mark code after made
  | [_], _, mark, after, code, made => hotherwise mark code after made
  | condition :: body :: rest, hps, mark, after, code, made => by
    obtain ⟨-, hbody, hrest⟩ := (forall_mem_cons.1 hps).imp id forall_mem_cons.1
    simp only [branches, bind, Option.bind_eq_some_iff, pure, Option.some.injEq, Prod.exists]
      at made
    obtain ⟨_, _, yes, _, hyes, no, _, hno, made⟩ := made
    cases made
    exact ⟨hbody.stmt hyes, guarded_branches hotherwise hrest hno⟩

variable {n : Node} {after mark : Int} {code : Stmt} {values : Part}

theorem guarded_loop {sequence body otherwise : Part} (hbody : body.Guarded)
    (hotherwise : otherwise.Guarded) (made : loop? n sequence body otherwise = some (code, after)) :
    code.Guarded := by
  simp only [loop?, bind, Option.bind_eq_some_iff, pure, Prod.exists] at made
  obtain ⟨_, _, inner, _, hinner, made⟩ := made
  split at made
  · simp only [Option.bind_eq_some_iff, Prod.exists] at made
    obtain ⟨other, _, hother, made⟩ := made
    cases made
    exact ⟨hbody.stmt hinner, hotherwise.stmt hother⟩
  · cases made
    exact ⟨hbody.stmt hinner, trivial⟩

theorem guarded_assignments : ∀ {names : List Part} {i : Nat} {code : Stmt}, assignments values mark
    i names = some code → code.Guarded
  | [], _, _, made => by
    cases made
    trivial
  | _ :: names, i, code, made => by
    simp only [assignments, bind, Option.bind_eq_some_iff, pure, Option.some.injEq] at made
    obtain ⟨_, _, _, _, rest, hrest, made⟩ := made
    cases made
    exact ⟨trivial, guarded_assignments hrest⟩

theorem guarded_assign {names : Part} (made : assign? n names values = some (code, after)) :
    code.Guarded := by
  unfold assign? at made
  split at made
  · simp only [bind, Option.bind_eq_some_iff, pure, Option.some.injEq, Prod.exists] at made
    obtain ⟨_, _, _, _, _, made⟩ := made
    cases made
    trivial
  · simp only [bind, Option.bind_eq_some_iff, pure, Option.some.injEq] at made
    obtain ⟨_, assigned, made⟩ := made
    cases made
    exact guarded_assignments assigned

theorem guarded_inclusion {template bindings : Part}
    (made : inclusion? n template bindings = some (code, after)) : code.Guarded := by
  simp only [inclusion?, bind, Option.bind_eq_some_iff, pure] at made
  obtain ⟨_, _, made⟩ := made
  split at made
  · cases made
    trivial
  · simp only [Option.bind_eq_some_iff] at made
    obtain ⟨_, _, made⟩ := made
    cases made
    trivial

/-! ## Prints -/

theorem clean_of_printable {l : Int} {t : String} {as : List (String × Attr)} {cs : List Node}
    (h : (Node.node .constant l t as cs).printable = true) {s : String}
    (hs : (((Node.node .constant l t as cs).attr? "value").getD .null) = .text s) : Clean s := by
  change (match (Node.node .constant l t as cs).attr? "value" with
    | some (.text s) => decide (Clean s)
    | _ => true) = true at h
  cases hv : (Node.node .constant l t as cs).attr? "value" with
  | none =>
    rw [hv] at hs
    cases hs
  | some value =>
    rw [hv] at h hs
    obtain rfl : value = .text s := hs
    exact of_decide_eq_true h

theorem guarded_printed {strategy : String} {expr : Node} (hexpr : expr.printable = true) {e : Expr}
    (made : (partOf (if isSafe expr then expr
      else escaped strategy expr)).expr = some e) : e.Guarded := by
  split at made
  · next safe =>
    cases expr with
    | absent => cases made
    | node k l t as cs =>
      change expr? _ (partsOf cs) .strict = some e at made
      rcases isSafe_node safe with rfl | rfl | rfl | rfl | ⟨rfl, named⟩
      · cases made
        intro s hs
        exact clean_of_printable hexpr hs
      · cases made
        rintro s ⟨rfl⟩
        exact of_decide_eq_true hexpr
      · cases made
        trivial
      · obtain ⟨_, _, made⟩ := Option.bind_eq_some_iff.1 made
        cases made
        trivial
      · change filter? _ _ _ = some e at made
        simp only [filter?, bind, Option.bind_eq_some_iff, pure, Option.some.injEq] at made
        obtain ⟨_, _, _, _, made⟩ := made
        cases made
        have unlike : (Node.node .filter l t as cs).text "name" ≠ "raw" := bne_iff_ne.1 hexpr
        simpa [safeFilters, unlike, Expr.Guarded] using named
  · change filter? _ _ _ = some e at made
    simp only [filter?, bind, Option.bind_eq_some_iff, pure, Option.some.injEq] at made
    obtain ⟨_, _, _, _, made⟩ := made
    cases made
    exact Or.inl rfl

/-! ## Whole trees -/

theorem guarded_stmt {parts : List Part} (hparts : ∀ p ∈ parts, p.Guarded)
    (htext : n.kind = .text → Clean (n.text "data")) (hprint : n.kind ≠ .print)
    (hbranch : n.kind = .branch → ((parts[0]?).getD Part.none).node.kind ≠ .print)
    (made : stmt? n parts mark = some (code, after)) : code.Guarded := by
  have part := Part.guarded_getD hparts
  unfold stmt? at made
  split at made
  · exact guarded_sequence hparts made
  · next is =>
    cases made
    exact htext is
  · next is => exact absurd is hprint
  · exact guarded_loop (part 3) (part 4) made
  · cases made
    trivial
  · next is =>
    exact guarded_branches (fun _ _ _ => (part 1).stmt) ((part 0).parts (hbranch is)) made
  · cases made
    trivial
  · exact guarded_assign made
  · exact guarded_inclusion made
  · cases made

theorem node_partOf (n : Node) : (partOf n).node = n := by
  cases n with
  | absent | node => rfl

theorem partsOf_eq_map (ns : List Node) : partsOf ns = ns.map partOf := by
  induction ns with
  | nil => rfl
  | cons n ns ih => rw [partsOf, ih, map_cons]

theorem applyAll_eq_map (strategy : String) (ns : List Node) :
    applyAll strategy ns = ns.map (apply strategy) := by
  induction ns with
  | nil => rfl
  | cons n ns ih => rw [applyAll, ih, map_cons]

theorem node_getD_partsOf (strategy : String) (ns : List Node) (i : Nat) :
    ((((partsOf (applyAll strategy ns))[i]?).getD Part.none).node).kind =
      ((ns[i]?).getD .absent).kind := by
  rw [partsOf_eq_map, applyAll_eq_map, map_map, getElem?_map]
  cases ns[i]? with
  | none => rfl
  | some n =>
    change (partOf (apply strategy n)).node.kind = n.kind
    rw [node_partOf, kind_apply]

mutual

/-- **What is made from a harmless tree that has been escaped is guarded.** -/
theorem guarded_partOf (strategy : String) (n : Node) (hn : n.harmless = true) :
    (partOf (apply strategy n)).Guarded := by
  cases n with
  | absent => exact Part.guarded_none
  | node k l t as cs =>
    obtain ⟨htext, hprint, hbranch, hcs⟩ := Node.harmless_node hn
    by_cases is : k = .print
    · subst is
      rw [apply, if_pos (beq_self_eq_true _)]
      refine .part (fun mark code after made => ?_) fun other => absurd rfl other
      obtain ⟨e, printed, made⟩ := Option.bind_eq_some_iff.1 made
      cases made
      cases cs with
      | nil => cases printed
      | cons expr rest => exact guarded_printed (hprint rfl) printed
    · rw [apply, if_neg (mt beq_iff_eq.1 is)]
      have below := guarded_partsOf strategy cs hcs
      refine .part (fun mark code after made => ?_) fun _ => below
      refine guarded_stmt below ?text ?other ?branch made
      case text => exact htext
      case other => exact is
      case branch =>
        intro branch print
        rw [node_getD_partsOf] at print
        cases (hbranch branch).symm.trans print

theorem guarded_partsOf (strategy : String) (ns : List Node) (hns : Node.allHarmless ns = true) :
    ∀ p ∈ partsOf (applyAll strategy ns), p.Guarded := by
  cases ns with
  | nil => exact forall_mem_nil _
  | cons n ns =>
    obtain ⟨hn, hns⟩ := Bool.and_eq_true_iff.1 hns
    exact forall_mem_cons.2 ⟨guarded_partOf strategy n hn, guarded_partsOf strategy ns hns⟩

end

/-! ## Whole templates -/

theorem guarded_blocks {bs : List Part} (hbs : ∀ b ∈ bs, (b.child 0).Guarded) :
    ∀ {mark : Int} {made : List (String × Stmt)}, blocks bs mark = some made →
      ∀ b ∈ made, b.2.Guarded := by
  induction bs with
  | nil =>
    intro mark made h
    cases h
    exact forall_mem_nil _
  | cons b bs ih =>
    intro mark made h
    obtain ⟨hb, hbs⟩ := forall_mem_cons.1 hbs
    simp only [blocks, bind, Option.bind_eq_some_iff, pure, Option.some.injEq, Prod.exists] at h
    obtain ⟨body, _, hbody, rest, hrest, rfl⟩ := h
    exact forall_mem_cons.2 ⟨hb.stmt hbody, ih hbs hrest⟩

/-- **The program of a harmless tree that has been escaped is guarded.** -/
theorem guarded_assemble {strategy unit : String} {module : Node} {t : Template}
    (shape : module.IsTemplate) (harmless : module.harmless = true)
    (made : assemble (apply strategy module) unit = some t) : t.Guarded := by
  obtain ⟨body, parent, drafts, name, rfl⟩ := shape
  have whole := guarded_partOf strategy _ harmless
  have child := whole.child nofun
  simp only [assemble, bind, Option.bind_eq_some_iff, pure, Option.some.injEq, Prod.exists] at made
  obtain ⟨shown, mark, hshown, _, _, bs, hbs, rfl⟩ := made
  refine ⟨(child 0).stmt hshown, guarded_blocks (fun b hb => ?_) hbs⟩
  have guarded := (child 2).parts nofun b hb
  change b ∈ partsOf (applyAll strategy (drafts.map Parse.blockNode)) at hb
  rw [partsOf_eq_map, applyAll_eq_map, map_map, map_map] at hb
  obtain ⟨draft, -, rfl⟩ := mem_map.1 hb
  exact guarded.child nofun 0

end Program
end Stencil
