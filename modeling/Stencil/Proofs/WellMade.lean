import Stencil.Proofs.Guarded
import Stencil.Proofs.Lines

/-!
# Well-made trees

What the children and attributes of a node mean depends on its kind. A node is `complete` when it
has all that its kind asks for: a loop has two targets, a sequence, a body, the flags of its ends
and an else body if it says so; a branch has conditions and bodies in pairs; a filter has an operand
and a list of arguments. A tree is *well made* when every node in it is complete and comes from a
line of the source.

The constructors of trees build well-made trees from well-made ones, and so does escaping
(`Autoescape.wellMade_apply`). Nobody who reads such a tree comes upon a child or an attribute that
is missing.
-/

namespace Stencil.Node

open List

/-! ## Complete nodes -/

inductive Slot
  | any
  | filled
  | only (kind : Kind)

/-- Whether a child of a kind may stand at a place; what is absent has the kind `invalid`. -/
def Slot.admits : Slot → Kind → Bool
  | .any, _ => true
  | .filled, kind => kind != .invalid
  | .only wanted, kind => kind == wanted

structure Face where
  kind : Kind
  members : List Kind

def face (n : Node) : Face := ⟨n.kind, if n.kind == .body then n.children.map kind else []⟩

def fits : List Slot → List Face → Bool
  | [], [] => true
  | slot :: slots, c :: cs => slot.admits c.kind && fits slots cs
  | _, _ => false

def hasText (n : Node) (key : String) : Bool :=
  match n.attr? key with
  | some (.text _) => true
  | _ => false

def hasFlag (n : Node) (key : String) : Bool :=
  match n.attr? key with
  | some (.bool _) => true
  | _ => false

def hasConstant (n : Node) (key : String) : Bool :=
  match n.attr? key with
  | some (.foreign _) => false
  | some _ => true
  | none => false

def hasLoopFlags (n : Node) : Bool :=
  n.hasFlag "with_loop" && n.hasFlag "ifexpr" && n.hasFlag "else"

/-- Whether there are conditions and bodies in turn, and perhaps an else body. -/
def branchFits : List Face → Bool
  | [tests, _] => tests.kind == .body && tests.members.length % 2 == 0
  | _ => false

def assignFits (capture : Bool) : List Face → Bool
  | [names, values] =>
    names.kind == .body && values.kind == .body && names.members.all (· == .target) &&
      names.members.length == values.members.length && (!capture || names.members.length == 1)
  | _ => false

/-- Whether a node has the attributes and the children its kind asks for. A whole template is no
part of another tree. -/
def complete (n : Node) : Bool :=
  let cs := n.children.map face
  match n.kind with
  | .body | .array | .arguments => cs.all (·.kind != .invalid)
  | .text => n.hasText "data" && fits [] cs
  | .print | .blockCall => fits [.filled] cs
  | .loop =>
    n.hasText "key_target" && n.hasText "value_target" && n.hasLoopFlags &&
      fits [.only .target, .only .target, .filled, .filled,
        if n.flag "else" then .filled else .any] cs
  | .loopEnd => n.hasLoopFlags && fits [] cs
  | .branch => branchFits cs
  | .block => n.hasText "name" && fits [.filled] cs
  | .assign => n.hasFlag "capture" && assignFits (n.flag "capture") cs
  | .inclusion => n.hasFlag "only" && n.hasFlag "ignore_missing" && fits [.filled, .any] cs
  | .constant => n.hasConstant "value" && fits [] cs
  | .stringConstant => n.hasText "value" && fits [] cs
  | .blockReference | .ident | .target | .parent => n.hasText "name" && fits [] cs
  | .getAttr => n.hasText "type" && fits [.filled, .filled, .only .arguments] cs
  | .hash => cs.all (·.kind != .invalid) && cs.length % 2 == 0
  | .namedArgument => n.hasText "name" && fits [.filled] cs
  | .filter | .test => n.hasText "name" && fits [.filled, .only .arguments] cs
  | .call => n.hasText "name" && fits [.only .arguments] cs
  | .conditional => fits [.filled, .filled, .filled] cs
  | kind =>
    if kind.isUnary then fits [.filled] cs
    else kind.isBinary && fits [.filled, .filled] cs

variable {n : Node} {ns : List Node}

theorem constant_of_complete (h : n.complete = true) (kind : n.kind = .constant)
    (typeName : String) :
    (n.attr? "value").getD .null ≠ .foreign typeName := by
  unfold complete at h
  rw [kind] at h
  obtain ⟨has, _⟩ := Bool.and_eq_true_iff.1 h
  intro foreign
  unfold hasConstant at has
  cases found : n.attr? "value" with
  | none =>
    rw [found] at has
    exact absurd has Bool.false_ne_true
  | some c =>
    rw [found] at has foreign
    cases foreign
    exact absurd has Bool.false_ne_true

/-! ## Well-made trees -/

/-- Every node of a tree is complete and comes from a line of the source. -/
inductive WellMade (last : Nat) : Node → Prop
  | absent : WellMade last .absent
  | node {kind : Kind} {line : Int} {tag : String} {attrs : List (String × Attr)}
      {children : List Node} (complete : (node kind line tag attrs children).complete = true)
      (onLine : OnLine last line) (below : ∀ c ∈ children, WellMade last c) :
      WellMade last (node kind line tag attrs children)

structure Proper (last : Nat) (n : Node) : Prop where
  wellMade : n.WellMade last
  present : n.kind ≠ .invalid

variable {last : Nat}

theorem Proper.onLine (h : n.Proper last) : OnLine last n.line := by
  cases h.wellMade with
  | absent => exact absurd rfl h.present
  | node _ onLine _ => exact onLine

theorem Proper.isAbsent (h : n.Proper last) : n.isAbsent = false := by
  cases n with
  | absent => exact absurd rfl h.present
  | node => rfl

theorem proper_node {kind : Kind} {line : Int} {tag : String} {attrs : List (String × Attr)}
    {children : List Node} (complete : (node kind line tag attrs children).complete = true)
    (onLine : OnLine last line) (below : ∀ c ∈ children, c.WellMade last) :
    (node kind line tag attrs children).Proper last where
  wellMade := .node complete onLine below
  present invalid := by
    change kind = .invalid at invalid
    subst invalid
    exact absurd complete Bool.false_ne_true

/-! ## Places -/

/-- Nodes that stand at their places and are well made. -/
inductive Filled (last : Nat) : List Slot → List Node → Prop
  | nil : Filled last [] []
  | any {n : Node} {slots : List Slot} {ns : List Node} (made : n.WellMade last)
    (rest : Filled last slots ns) : Filled last (.any :: slots) (n :: ns)
  | filled {n : Node} {slots : List Slot} {ns : List Node} (proper : n.Proper last)
    (rest : Filled last slots ns) : Filled last (.filled :: slots) (n :: ns)
  | only {n : Node} {slots : List Slot} {ns : List Node} (proper : n.Proper last)
    (rest : Filled last slots ns) : Filled last (.only n.kind :: slots) (n :: ns)

theorem Filled.fits {slots : List Slot} (h : Filled last slots ns) :
    fits slots (ns.map face) = true := by
  induction h with
  | nil => rfl
  | any _ _ ih => exact ih
  | filled proper _ ih => exact Bool.and_eq_true_iff.2 ⟨bne_iff_ne.2 proper.present, ih⟩
  | only _ _ ih => exact Bool.and_eq_true_iff.2 ⟨beq_iff_eq.2 rfl, ih⟩

theorem Filled.wellMade {slots : List Slot} (h : Filled last slots ns) :
    ∀ n ∈ ns, n.WellMade last := by
  induction h with
  | nil => exact forall_mem_nil _
  | any made _ ih => exact forall_mem_cons.2 ⟨made, ih⟩
  | filled proper _ ih | only proper _ ih => exact forall_mem_cons.2 ⟨proper.wellMade, ih⟩

theorem eq_singleton_of_fits (h : fits [.filled] (ns.map face) = true) :
    ∃ n, ns = [n] ∧ n.kind ≠ .invalid := by
  cases ns with
  | nil => exact absurd h Bool.false_ne_true
  | cons n rest =>
    obtain ⟨present, h⟩ := Bool.and_eq_true_iff.1 h
    cases rest with
    | nil => exact ⟨n, rfl, bne_iff_ne.1 present⟩
    | cons => exact absurd h Bool.false_ne_true

theorem all_present (h : ∀ n ∈ ns, n.Proper last) :
    (ns.map face).all (·.kind != .invalid) = true := by
  refine all_eq_true.2 fun o ho => ?_
  obtain ⟨n, hn, rfl⟩ := mem_map.1 ho
  exact bne_iff_ne.2 (h n hn).present

/-! ## Constructors -/

section Constructors

variable {line : Int} (onLine : OnLine last line)

include onLine

variable {kind : Kind} {attrs : List (String × Attr)} {n value otherwise : Node} {ns : List Node}

theorem proper_leaf (complete : (node kind line "" attrs []).complete = true) :
    (node kind line "" attrs []).Proper last :=
  proper_node complete onLine (forall_mem_nil _)

theorem proper_filled {tag : String} {slots : List Slot} (h : Filled last slots ns)
    (asks : (node kind line tag attrs ns).complete = fits slots (ns.map face)) :
    (node kind line tag attrs ns).Proper last :=
  proper_node (asks.trans h.fits) onLine h.wellMade

theorem proper_row (hkind : kind = .body ∨ kind = .array ∨ kind = .arguments)
    (h : ∀ n ∈ ns, n.Proper last) : (plain kind line ns).Proper last := by
  refine proper_node ?_ onLine fun n hn => (h n hn).wellMade
  rcases hkind with rfl | rfl | rfl <;> exact all_present h

theorem proper_ofBody (h : ∀ n ∈ ns, n.Proper last) : (ofBody ns line).Proper last :=
  proper_row onLine (.inl rfl) h

theorem proper_hash (h : ∀ n ∈ ns, n.Proper last) (even : ns.length % 2 = 0) :
    (plain .hash line ns).Proper last := by
  refine proper_node ?_ onLine fun n hn => (h n hn).wellMade
  exact Bool.and_eq_true_iff.2 ⟨all_present h, beq_iff_eq.2 (length_map face ▸ even)⟩

theorem proper_unary (hkind : kind.isUnary = true) (h : n.Proper last) :
    (plain kind line [n]).Proper last := by
  refine proper_filled onLine (.filled h .nil) ?_
  cases kind <;> first | rfl | exact absurd hkind Bool.false_ne_true

theorem proper_binary (hkind : kind.isBinary = true) {left right : Node} (hleft : left.Proper last)
    (hright : right.Proper last) : (plain kind line [left, right]).Proper last := by
  refine proper_filled onLine (.filled hleft (.filled hright .nil)) ?_
  cases kind <;> first | rfl | exact absurd hkind Bool.false_ne_true

theorem proper_arguments (h : ∀ n ∈ ns, n.Proper last) : (plain .arguments line ns).Proper last :=
  proper_row onLine (.inr (.inr rfl)) h

theorem proper_branch {tests : List Node} (htests : ∀ n ∈ tests, n.Proper last)
    (even : tests.length % 2 = 0) (hotherwise : otherwise.WellMade last) :
    (plain .branch line [ofBody tests line, otherwise]).Proper last := by
  refine proper_node ?_ onLine (forall_mem_cons.2 ⟨(proper_ofBody onLine htests).wellMade,
    forall_mem_singleton.2 hotherwise⟩)
  change ((tests.map kind).length % 2 == 0) = true
  rw [length_map, even]
  rfl

theorem proper_assign (capture : Bool) {names values : List Node}
    (hnames : ∀ n ∈ names, n.Proper last ∧ n.kind = .target) (hvalues : ∀ n ∈ values, n.Proper last)
    (count : names.length = values.length) (single : capture = true → names.length = 1) :
    (node .assign line "" [("capture", .bool capture)]
      [ofBody names line, ofBody values line]).Proper last := by
  refine proper_node ?_ onLine (forall_mem_cons.2
    ⟨(proper_ofBody onLine fun n hn => (hnames n hn).1).wellMade,
      forall_mem_singleton.2 (proper_ofBody onLine hvalues).wellMade⟩)
  change ((names.map kind).all (· == .target) &&
    (names.map kind).length == (values.map kind).length &&
    (!capture || (names.map kind).length == 1)) = true
  have targets : (names.map kind).all (· == .target) = true := by
    refine all_eq_true.2 fun k hk => ?_
    obtain ⟨n, hn, rfl⟩ := mem_map.1 hk
    exact beq_iff_eq.2 (hnames n hn).2
  rw [targets, length_map, length_map, ← count, beq_self_eq_true]
  cases capture with
  | false => rfl
  | true => exact beq_iff_eq.2 (single rfl)

theorem proper_loop {key sequence condition body : Node}
    (hkey : key.Proper last ∧ key.kind = .target)
    (hvalue : value.Proper last ∧ value.kind = .target) (hsequence : sequence.Proper last)
    (hcondition : condition.isAbsent = true ∨ condition.Proper last) (hbody : body.Proper last)
    (hotherwise : otherwise.isAbsent = true ∨ otherwise.Proper last) :
    (Parse.loopNode line key value sequence condition body otherwise).Proper last := by
  unfold Parse.loopNode Parse.flaggedLoop
  generalize hflags :
    Parse.loopFlags (body.names "loop") (!condition.isAbsent) (!otherwise.isAbsent) = flags
  have round : (Parse.loopRound flags line body).Proper last := by
    have ending : (node .loopEnd line "" flags []).Proper last := proper_leaf onLine (hflags ▸ rfl)
    exact proper_ofBody hbody.onLine
      (forall_mem_cons.2 ⟨hbody, forall_mem_singleton.2 ending⟩)
  have pass : (Parse.loopPass flags line condition body).Proper last := by
    unfold Parse.loopPass
    split
    · exact round
    · next there =>
      refine proper_branch onLine (forall_mem_cons.2 ⟨hcondition.resolve_left there,
        forall_mem_singleton.2 round⟩) (Nat.mod_self 2) .absent
  have made : otherwise.WellMade last := by
    rcases hotherwise with none | some
    · cases otherwise with
      | absent => exact .absent
      | node => exact absurd none Bool.false_ne_true
    · exact some.wellMade
  -- the flag says whether the last place is filled
  have last : Filled last [if !otherwise.isAbsent then .filled else .any] [otherwise] := by
    rcases hotherwise with none | some
    · rw [none]
      exact .any made .nil
    · rw [some.isAbsent]
      exact .filled some .nil
  refine proper_filled onLine (.only hkey.1 (.only hvalue.1 (.filled hsequence (.filled pass last)))) ?_
  rw [hkey.2, hvalue.2, ← hflags]
  rfl

end Constructors

theorem Proper.withTag (h : n.Proper last) (name : String) : (n.withTag name).Proper last := by
  cases n with
  | absent => exact h
  | node k l t as cs =>
    cases h.wellMade with
    | node complete onLine below => exact proper_node complete onLine below

/-! ## Whole templates -/

def Whole (last : Nat) (name : String) (module : Node) : Prop :=
  ∃ (body parent : Node) (blocks : List Node), module = ofModule body parent blocks name ∧
    body.Proper last ∧ parent.WellMade last ∧ ∀ b ∈ blocks, b.kind = .block ∧ b.WellMade last

end Stencil.Node

namespace Stencil.Autoescape

open Node List

variable {last : Nat} (strategy : String)

theorem face_apply (n : Node) : (apply strategy n).face = n.face := by
  unfold face
  rw [kind_apply]
  split
  · next body =>
    cases n with
    | absent => rfl
    | node k l t as cs =>
      cases eq_of_beq body
      change Face.mk _ ((applyAll strategy cs).map kind) = ⟨_, cs.map kind⟩
      rw [Program.applyAll_eq_map, map_map]
      exact congrArg _ (map_congr_left fun n _ => kind_apply strategy n)
  · rfl

theorem proper_escaped {expr : Node} (h : expr.Proper last) :
    (escaped strategy expr).Proper last := by
  have word : (ofString strategy expr.line).Proper last := proper_leaf h.onLine rfl
  have args := proper_arguments h.onLine (forall_mem_singleton.2 word)
  exact proper_filled h.onLine (.filled h (.only args .nil)) rfl

theorem wellMade_apply {n : Node} (h : n.WellMade last) : (apply strategy n).WellMade last := by
  induction h with
  | absent => exact .absent
  | @node kind line tag attrs children complete onLine below ih =>
    unfold apply
    split
    · next print =>
      cases eq_of_beq print
      obtain ⟨expr, rfl, present⟩ := eq_singleton_of_fits complete
      have proper : expr.Proper last := ⟨below expr mem_cons_self, present⟩
      have shown : (if isSafe expr then expr else escaped strategy expr).Proper last := by
        split
        · exact proper
        · exact proper_escaped strategy proper
      exact (proper_filled onLine (.filled shown .nil) rfl).wellMade
    · refine .node ?_ onLine ?_
      · have same : (applyAll strategy children).map face = children.map face := by
          rw [Program.applyAll_eq_map, map_map]
          exact map_congr_left fun n _ => face_apply strategy n
        unfold Node.complete at complete ⊢
        dsimp only [Node.children, Node.kind] at complete ⊢
        rw [same]
        exact complete
      · rw [Program.applyAll_eq_map]
        intro c hc
        obtain ⟨n, hn, rfl⟩ := mem_map.1 hc
        exact ih n hn

theorem whole_apply {name : String} {module : Node} (h : module.Whole last name) :
    (apply strategy module).Whole last name := by
  obtain ⟨body, parent, blocks, rfl, hbody, hparent, hblocks⟩ := h
  refine ⟨apply strategy body, apply strategy parent, applyAll strategy blocks, rfl,
    ⟨wellMade_apply strategy hbody.wellMade, (kind_apply strategy body).symm ▸ hbody.present⟩,
    wellMade_apply strategy hparent, ?_⟩
  rw [Program.applyAll_eq_map]
  intro b hb
  obtain ⟨n, hn, rfl⟩ := mem_map.1 hb
  exact ⟨(kind_apply strategy n).trans (hblocks n hn).1, wellMade_apply strategy (hblocks n hn).2⟩

end Stencil.Autoescape
