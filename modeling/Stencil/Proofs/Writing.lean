import Stencil.Proofs.Rows

/-!
# What can go wrong while a listing is written

A writer remembers the first thing that went wrong. For the program of a well-made tree there is
only one such thing: a `defined` test that is asked of something that is neither a variable or an
attribute nor a constant or a container (`Node.misused`). A kind that cannot be written, a template
inside another one, a constant without a literal form or a line outdented too far do not come up.

`Emits` says of a change to a writer that it ends at the depth at which it started, that it only adds
to the text, and that nothing else goes wrong; all ways of writing are put together from changes of
that sort. `Listing.write_emits` has one case for each kind of node, and `Listing.clean_lower` is an
induction over the tree, whether or not it is well-made.
-/

namespace Stencil

open List Writer

/-! ## Misused tests -/

namespace Node

inductive Somewhere (P : Node → Prop) : Node → Prop
  | here {n : Node} (h : P n) : Somewhere P n
  | child {n c : Node} (mem : c ∈ n.children) (h : Somewhere P c) : Somewhere P n

def MisusedAt (line : Int) (n : Node) : Prop :=
  n.Somewhere fun m => m.misused = true ∧ m.line = line

@[elab_as_elim]
theorem induction {motive : Node → Prop} (absent : motive .absent)
    (node : ∀ kind line tag attrs children, (∀ c ∈ children, motive c) →
      motive (.node kind line tag attrs children)) : ∀ n, motive n
  | .absent => absent
  | .node kind line tag attrs children =>
    node kind line tag attrs children fun c _ => induction absent node c

end Node

/-- In a well-made tree only tests are faulty. -/
theorem Node.WellMade.misusedAt_of_fault {last : Nat} {n : Node} (h : n.WellMade last)
    {template : String} {f : Failure} (fault : n.Somewhere fun m => m.Fault template f) :
    ∃ line, n.MisusedAt line ∧ OnLine last line ∧ f = .malformed .definedOperand template line := by
  induction fault with
  | here there =>
    cases h with
    | absent =>
      cases there with
      | misused wrong => cases wrong
      | incomplete present => cases present
    | node complete onLine _ =>
      cases there with
      | misused wrong => exact ⟨_, .here ⟨wrong, rfl⟩, onLine, rfl⟩
      | incomplete _ lacking => cases complete.symm.trans lacking
  | child mem _ ih =>
    cases h with
    | absent => exact absurd mem not_mem_nil
    | node _ _ below =>
      obtain ⟨line, there, rest⟩ := ih (below _ mem)
      exact ⟨line, .child mem there, rest⟩

/-! ## Changes to a writer -/

/-- A writer after something has been added to its text, if nothing had gone wrong, and perhaps
something with a property has gone wrong for the first time. -/
structure Writer.Grows (Q : String → Failure → Prop) (w w' : Writer) : Prop where
  template : w'.template = w.template
  text : ∃ added, w'.text = w.text ++ added ∧ (w.failure ≠ none → added = "")
  failure : w'.failure = w.failure ∨
    w.failure = none ∧ ∃ f, Q w.template f ∧ w'.failure = some f

/-- From `k` levels below some depth to `m` levels below it. -/
structure Writer.Moves (Q : String → Failure → Prop) (k m : Nat) (w w' : Writer) : Prop
    extends Grows Q w w' where
  depth : w'.depth + k = w.depth + m

/-- A change that ends at the depth at which it starts. -/
def Emits (Q : String → Failure → Prop) (e : Emit) : Prop := ∀ w, Writer.Moves Q 0 0 w (e w)

namespace Writer

variable {Q : String → Failure → Prop} {k l m : Nat} {w w' w'' : Writer}

theorem Grows.of_same (template : w'.template = w.template) (text : w'.text = w.text)
    (failure : w'.failure = w.failure) : Grows Q w w' :=
  ⟨template, ⟨"", text.trans (String.append_empty ..).symm, fun _ => rfl⟩, .inl failure⟩

theorem Grows.trans (h : Grows Q w w') (h' : Grows Q w' w'') : Grows Q w w'' where
  template := h'.template.trans h.template
  text := by
    obtain ⟨first, hfirst, quiet⟩ := h.text
    obtain ⟨second, hsecond, quiet'⟩ := h'.text
    refine ⟨first ++ second, by rw [hsecond, hfirst, String.append_assoc], fun failed => ?_⟩
    have still : w'.failure ≠ none := by
      rcases h.failure with same | ⟨none, -⟩
      · rwa [same]
      · exact absurd none failed
    rw [quiet failed, quiet' still]
    rfl
  failure := by
    rcases h'.failure with same | ⟨none, f, hf, failed⟩
    · rw [same]
      exact h.failure
    · rcases h.failure with same | ⟨-, f', -, failed'⟩
      · exact .inr ⟨same ▸ none, f, h.template ▸ hf, failed⟩
      · cases failed'.symm.trans none

theorem Moves.refl (w : Writer) : Moves Q k k w w := ⟨.of_same rfl rfl rfl, rfl⟩

theorem Moves.trans (h : Moves Q k l w w') (h' : Moves Q l m w' w'') : Moves Q k m w w'' where
  toGrows := h.toGrows.trans h'.toGrows
  depth := by
    have := h.depth
    have := h'.depth
    omega

theorem Moves.shift (h : Moves Q 0 0 w w') (k : Nat) : Moves Q k k w w' :=
  ⟨h.toGrows, congrArg (· + k) h.depth⟩

theorem Moves.locals (h : Moves Q 0 0 w w') (n : Nat) : Moves Q 0 0 w { w' with locals := n } :=
  h.trans ⟨.of_same rfl rfl rfl, rfl⟩

theorem moves_indent : Moves Q k (k + 1) w (indent w) :=
  ⟨.of_same rfl rfl rfl, by simp only [indent]; omega⟩

theorem moves_outdent (deep : 0 < w.depth) : Moves Q (k + 1) k w (outdent w) := by
  unfold outdent
  rw [if_neg (Nat.ne_of_gt deep)]
  exact ⟨.of_same rfl rfl rfl, by dsimp only; omega⟩

theorem grows_fail {f : Failure} (h : Q w.template f) : Grows Q w (fail f w) := by
  unfold fail
  split
  · exact .of_same rfl rfl rfl
  · next none =>
    exact ⟨rfl, ⟨"", (String.append_empty ..).symm, fun _ => rfl⟩, .inr ⟨none, f, h, rfl⟩⟩

end Writer

section Emits

open Writer

variable {Q : String → Failure → Prop}

@[simp] theorem emits_id : Emits Q id := fun w => .refl w

@[simp] theorem emits_raw (s : String) : Emits Q (raw s) := by
  intro w
  unfold raw
  split
  · exact .refl w
  · next none => exact ⟨⟨rfl, ⟨s, rfl, absurd none⟩, .inl rfl⟩, rfl⟩

@[simp] theorem emits_start (pieces : List String) : Emits Q (start pieces) := by
  intro w
  unfold start
  split
  · exact .refl w
  · next none => exact ⟨⟨rfl, ⟨_, String.append_assoc .., absurd none⟩, .inl rfl⟩, rfl⟩

@[simp] theorem emits_line (s : String) : Emits Q (line s) := emits_start _

@[simp] theorem emits_string (s : String) : Emits Q (string s) := emits_raw _

@[simp] theorem emits_mark (line : Int) : Emits Q (mark line) := by
  intro w
  unfold mark
  split
  · exact .refl w
  · next none =>
    split
    · exact .refl w
    · exact ⟨⟨rfl, ⟨_, String.append_assoc .., absurd none⟩, .inl rfl⟩, rfl⟩

theorem emits_fail {f : String → Failure} (h : ∀ template, Q template (f template)) :
    Emits Q fun w => fail (f w.template) w := by
  refine fun w => ⟨grows_fail (h _), ?_⟩
  dsimp only
  unfold fail
  split <;> rfl

theorem emits_literal {c : Attr} (h : ∀ typeName, c = .foreign typeName →
    ∀ template text, Q template (.plain text)) : Emits Q (literal c) := by
  cases c with
  | foreign typeName => exact emits_fail fun template => h typeName rfl template _
  | _ => exact emits_raw _

theorem emits_all {es : List Emit} (h : ∀ e ∈ es, Emits Q e) : Emits Q (all es) := by
  induction es with
  | nil => exact fun w => .refl w
  | cons e es ih =>
    obtain ⟨he, hes⟩ := forall_mem_cons.1 h
    exact fun w => (he w).trans (ih hes (e w))

@[simp] theorem emits_ite {c : Prop} [Decidable c] {yes no : Emit} (hyes : Emits Q yes)
    (hno : Emits Q no) : Emits Q (if c then yes else no) := by
  split
  · exact hyes
  · exact hno

theorem emits_suite {body : Emit} (h : Emits Q body) : Emits Q (suite body) := by
  intro w
  have inside : Moves Q 0 1 w (body (indent w)) := moves_indent.trans ((h _).shift 1)
  have filled : Moves Q 0 1 w (if (body (indent w)).statements = w.statements then
      line "pass" (body (indent w)) else body (indent w)) := by
    split
    · exact inside.trans ((emits_line "pass" _).shift 1)
    · exact inside
  refine filled.trans (moves_outdent ?_)
  have := filled.depth
  omega

end Emits

namespace Listing

open Writer

theorem composes_emits {Q : String → Failure → Prop} : Composes (Emits Q) where
  skip := emits_id
  raw _ := emits_raw _
  all := emits_all
  braced h := emits_all (by simp [h])
  emitWith h care w := by
    cases h with
    | piece writes _ =>
      unfold Piece.emitWith
      split
      · exact .refl w
      · exact writes care w

/-- Writing a piece, or any piece below it, goes wrong only in some way. -/
abbrev Piece.Clean (Q : String → Failure → Prop) : Piece → Prop := Piece.Each (Emits Q)

variable {Q : String → Failure → Prop}

@[simp] theorem Piece.Clean.emit {p : Piece} (h : p.Clean Q) : Emits Q p.emit := composes_emits.emit h

@[simp] theorem Piece.Clean.part {p : Piece} (h : p.Clean Q) (i : Nat) : (p.part i).Clean Q :=
  composes_emits.part h i

variable {args otherwise values : Piece} {n module : Node} {last : Nat} {name : String}

/-! ## Statements -/

theorem emits_branches : ∀ {word : String} {ps : List Piece}, (∀ p ∈ ps, p.Clean Q) →
    Emits Q (branches word ps)
  | _, [], _ => emits_id
  | _, [_], _ => emits_id
  | _, condition :: body :: rest, h => by
    obtain ⟨hcondition, hbody, hrest⟩ := (forall_mem_cons.1 h).imp id forall_mem_cons.1
    exact emits_all (by simp [hcondition, emits_suite hbody.emit, emits_branches hrest])

theorem emits_branch (n : Node) {tests : Piece} (htests : tests.Clean Q)
    (hotherwise : otherwise.Clean Q) : Emits Q (branch n tests otherwise) := by
  have last : Emits Q (all [line "else:", suite otherwise.emit]) :=
    emits_all (by simp [emits_suite hotherwise.emit])
  exact emits_all (by simp [emits_branches htests.parts, last])

theorem emits_loopStart (conditional : Bool) : Emits Q (loopStart conditional) :=
  emits_all (by simp [emits_all])

theorem emits_loop (n : Node) {sequence body : Piece} (hsequence : sequence.Clean Q)
    (hbody : body.Clean Q) (hotherwise : otherwise.Clean Q) :
    Emits Q (loop n sequence body otherwise) := by
  intro w
  unfold loop
  dsimp only [fresh]
  refine Moves.trans (Moves.locals (emits_all ?_ w) _) (emits_all ?_ _)
  · simp [hsequence, emits_loopStart]
  · have round (k v : String) : Emits Q (all [start ["context["], string (n.text "key_target"),
        raw k, start ["context["], string (n.text "value_target"), raw v, body.emit]) :=
      emits_all (by simp [hbody])
    have instead :
        Emits Q (all [line "if not context[\"_iterated\"]:", suite otherwise.emit]) :=
      emits_all (by simp [emits_suite hotherwise.emit])
    simp [emits_suite (round _ _), instead]

theorem emits_loopEnd (n : Node) : Emits Q (loopEnd n) := by
  refine emits_all (forall_mem_cons.2 ⟨emits_ite (emits_line _) emits_id, ?_⟩)
  refine forall_mem_singleton.2 (emits_ite (emits_all ?_) emits_id)
  simp [emits_all]

theorem emits_showing (header : String) {body : Emit} (h : Emits Q body) :
    Emits Q (showing header body) := by
  have inner :
      Emits Q (all [line "_out = []", body, line "return \"\".join(_out)"]) :=
    emits_all (by simp [h])
  exact emits_all (by simp [emits_suite inner])

theorem emits_assignments (hvalues : values.Clean Q) {ps : List Piece} :
    ∀ {i : Nat}, (∀ p ∈ ps, p.Clean Q) → Emits Q (assignments values i ps) := by
  induction ps with
  | nil => exact fun _ => emits_id
  | cons p ps ih =>
    intro i h
    obtain ⟨hp, hps⟩ := forall_mem_cons.1 h
    exact emits_all (by simp [hp, hvalues, ih hps])

theorem emits_assign (n : Node) {names : Piece} (hnames : names.Clean Q)
    (hvalues : values.Clean Q) :
    Emits Q (assign n names values) := by
  intro w
  unfold assign
  dsimp only [fresh]
  split
  · refine Moves.trans (Moves.locals (emits_mark n.line w) _) (emits_all ?_ _)
    have captured := fun header => emits_showing header (hvalues.part 0).emit
    simp [captured, hnames]
  · exact (emits_mark n.line w).trans (emits_assignments hvalues hnames.parts _)

/-! ## All kinds -/

/-- **What goes wrong while a node is written is a fault of the node**, or of one of its parts. -/
theorem write_emits (there : n.isAbsent = false) {parts : List Piece} (hparts : ∀ p ∈ parts, p.Clean Q)
    (first : ((parts[0]?).getD Piece.none).node = n.child 0)
    (faults : ∀ template f, n.Fault template f → Q template f) (care : Care) :
    Emits Q (write n parts care) := by
  have part (i : Nat) : ((parts[i]?).getD Piece.none).Clean Q := composes_emits.each_getD hparts i
  have emit := fun i => (part i).emit
  by_cases sort : n.kind.isStatement = false
  · exact composes_emits.write (fun f h => emits_fail fun template => faults _ _ (h template)) there
      sort hparts first care
  · unfold write
    cases kind : n.kind with
    | body =>
      refine emits_all fun e he => ?_
      obtain ⟨p, hp, rfl⟩ := mem_map.1 he
      exact (hparts p hp).emit
    | loop => exact emits_loop n (part 2) (part 3) (part 4)
    | loopEnd => exact emits_loopEnd n
    | branch => exact emits_branch n (part 0) (part 1)
    | block => exact emits_all (by simp [emits_showing _ (emit 0)])
    | assign => exact emits_assign n (part 0) (part 1)
    | inclusion => exact emits_all (by simp [part 0, part 1, composes_emits.flagWord])
    | text | print | blockReference => exact emits_all (by simp [emit])
    | module =>
      refine emits_fail fun template => faults template _ (.incomplete there ?_)
      unfold Node.complete
      rw [kind]
      rfl
    | _ => exact absurd (by rw [kind]; rfl) sort

/-- **What goes wrong while a tree is written is a fault of some node in it.** -/
theorem clean_lower (n : Node) (faults : ∀ template f,
    n.Somewhere (fun m => m.Fault template f) → Q template f) : (lower n).Clean Q := by
  induction n using Node.induction with
  | absent => exact .piece (fun _ => emits_id) (forall_mem_nil _)
  | node kind line tag attrs children ih =>
    have parts := forall_lowerAll fun c hc => ih c hc fun template f h => faults template f (.child hc h)
    exact .piece (write_emits rfl parts (node_first children) fun template f h =>
      faults template f (.here h)) parts

/-! ## Whole programs -/

/-- What several changes in turn do at `k` levels below some depth. -/
def Goes (Q : String → Failure → Prop) (k m : Nat) (es : List Emit) : Prop :=
  ∀ w : Writer, k ≤ w.depth → Moves Q k m w (all es w)

namespace Goes

variable {k m : Nat} {e : Emit} {es : List Emit}

theorem nil : Goes Q k k [] := fun w _ => .refl w

theorem cons (he : Emits Q e) (hes : Goes Q k m es) : Goes Q k m (e :: es) := by
  intro w hw
  have moved := he w
  exact (moved.shift k).trans (hes (e w) (by have := moved.depth; omega))

theorem indent (hes : Goes Q (k + 1) m es) : Goes Q k m (Writer.indent :: es) :=
  fun w hw => moves_indent.trans (hes (Writer.indent w) (Nat.succ_le_succ hw))

theorem outdent (hes : Goes Q k m es) : Goes Q (k + 1) m (Writer.outdent :: es) := by
  intro w hw
  have moved : Moves Q (k + 1) k w (Writer.outdent w) := moves_outdent (by omega)
  exact moved.trans (hes _ (by have := moved.depth; omega))

theorem emits (h : Goes Q 0 0 es) : Emits Q (all es) := fun w => h w (Nat.zero_le _)

end Goes

theorem emits_program {module : Piece} (hbody : (module.part 0).Clean Q)
    (hparent : (module.part 1).Clean Q) (hblocks : ∀ b ∈ (module.part 2).parts, b.Clean Q)
    (unit : String) : Emits Q (program module unit) := by
  have display (ending : String) :
      Emits Q (all [line "_out = []", (module.part 0).emit, line ending]) :=
    emits_all (by simp [hbody])
  have parent : Emits Q (all [start ["return "], (module.part 1).emit, raw "\n"]) :=
    emits_all (by simp [hparent])
  have blocks : Emits Q (all ((module.part 2).parts.map fun b => all [raw "\n", b.emit])) := by
    refine emits_all fun e he => ?_
    obtain ⟨b, hb, rfl⟩ := mem_map.1 he
    have := hblocks b hb
    exact emits_all (by simp [this])
  have entries : Emits Q (all ((module.part 2).parts.map blockEntry)) := by
    refine emits_all fun e he => ?_
    obtain ⟨b, _, rfl⟩ := mem_map.1 he
    exact emits_all (by simp)
  unfold program
  refine Goes.emits ?_
  -- the function of the template
  refine .cons (emits_line _) (.cons (emits_line _) (.cons (emits_raw _) (.cons (emits_line _) ?_)))
  refine .indent (.cons (emits_line _) (.cons (emits_suite (display _)) (.cons (emits_raw _) ?_)))
  refine .cons (emits_line _) (.cons (emits_suite (emits_ite (emits_line _) parent)) ?_)
  -- its blocks, and the table it returns, with the table of the blocks inside
  refine .cons blocks (.cons (emits_raw _) (.cons (emits_line _) (.indent ?_)))
  refine .cons (emits_start _) (.cons (emits_string _) (.cons (emits_raw _) ?_))
  refine .cons (emits_line _) (.cons (emits_line _) (.cons (emits_line _) (.indent ?_)))
  refine .cons entries (.outdent (.cons (emits_line _) ?_))
  exact .outdent (.cons (emits_line _) (.outdent .nil))

theorem emits_whole (h : module.Whole last name) (unit : String) :
    Emits (fun template f => ∃ line, module.MisusedAt line ∧ OnLine last line ∧
      f = .malformed .definedOperand template line) (program (lower module) unit) := by
  obtain ⟨body, parent, blocks, rfl, hbody, hparent, hblocks⟩ := h
  have clean {n : Node} (made : n.WellMade last)
      (inside : ∀ line, n.MisusedAt line → (Node.ofModule body parent blocks name).MisusedAt line) :=
    clean_lower n fun template f fault =>
      (made.misusedAt_of_fault fault).imp fun line there => there.imp_left (inside line)
  refine emits_program ?_ ?_ ?_ unit
  · exact clean hbody.wellMade fun line there => .child (.head _) there
  · exact clean hparent fun line there => .child (.tail _ (.head _)) there
  · change ∀ b ∈ lowerAll blocks, _
    rw [lowerAll_eq_map]
    intro b hb
    obtain ⟨n, hn, rfl⟩ := mem_map.1 hb
    have listed : Node.ofBody blocks 1 ∈ (Node.ofModule body parent blocks name).children :=
      .tail _ (.tail _ (.head _))
    exact clean (hblocks n hn).2 fun line there => .child listed (.child hn there)

theorem compile_of_module (module : Node) (kind : module.kind = .module) (unit : String → String)
    {w : Writer} (hw : program (lower module) (unit (module.text "filename"))
      (empty (module.text "filename")) = w) :
    (w.failure = none → compile module unit = .ok w.text) ∧
      ∀ f, w.failure = some f → compile module unit = .error f := by
  unfold compile
  rw [kind, if_neg (by decide)]
  dsimp only
  rw [hw]
  refine ⟨fun none => ?_, fun f failed => ?_⟩
  · rw [none]
  · rw [failed]

/-- **The program of a whole template can be written, or some test in it is misused.** -/
theorem compile_cases (h : module.Whole last name) (unit : String → String) :
    (∃ text, compile module unit = .ok text) ∨ ∃ line, compile module unit = .error
      (.malformed .definedOperand name line) ∧ module.MisusedAt line ∧ OnLine last line := by
  have written := emits_whole h (unit name) (empty name)
  obtain ⟨body, parent, blocks, rfl, -⟩ := h
  obtain ⟨good, bad⟩ := compile_of_module (Node.ofModule body parent blocks name) rfl unit rfl
  rcases written.failure with same | ⟨-, _, ⟨line, misused, onLine, rfl⟩, failed⟩
  · exact .inl ⟨_, good same⟩
  · exact .inr ⟨line, bad _ failed, misused, onLine⟩

end Listing

end Stencil
