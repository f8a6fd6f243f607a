import Stencil.Proofs.Running

/-!
# What it is to be read back

An expression is read by an operand reader, a loop over suffixes, a loop over operators and a loop
over conditionals. The suffixes of a term lean to the left: in `a.b.c` the reader of the operand
meets `a` and returns only when it has read all three. So there are two statements about a term,
together `Readable`. `LeadsTo` is about terms without operators: reading an operand that starts
with the term comes to reading suffixes, with the tree of the term in hand. `ReadsTo` is about all
terms, before a token that ends an expression.

Expressions are nested at most as deeply as they have tokens, so the depth that is left is compared
with the number of tokens of the part that is read.

The terms of one token are readable, and lists of readable terms are read by the loops over
arguments, items and entries. The three loops differ in what they read in one round, which is
`Steps`; that they read the whole list is proved once, in `runs_loop`.
-/

namespace Stencil.Parse

open Content List Term

variable {v : Vocabulary}

/-! ## Expressions before what ends them -/

/-- Before a token that ends an expression, a step reads exactly the given tokens, as the given
tree. -/
def ReadsTo (x : Parse Node) (ts : List Content) (n : Node) : Prop :=
  ∀ t rest, Closes t → Runs x (ts ++ t :: rest) fun m left => m.unlined = n ∧ left = t :: rest

/-- An operand that starts with the given tokens starts with the given tree, and it is its suffixes
that are read next. -/
def LeadsTo (v : Vocabulary) (depth : Nat) (ts : List Content) (n : Node) : Prop :=
  ∀ t rest Q, Follows t →
    (∀ m fuel, m.unlined = n → rest.length < fuel →
      Runs (suffixes v (nested v depth) fuel m) (t :: rest) Q) →
    Runs (operand v (nested v depth)) (ts ++ t :: rest) Q

/-- A term is read back from the tokens it is printed with, alone or as the beginning of an
operand. -/
structure Readable (layout : Layout v) (e : Term v) : Prop where
  opens : ∃ t ts, e.print layout = t :: ts ∧ Opens t
  first : e.isCompound = false → ∀ depth, (e.print layout).length ≤ depth + 1 →
    LeadsTo v depth (e.print layout) e.node
  whole : ∀ depth, (e.print layout).length ≤ depth →
    ReadsTo (nested v depth 0) (e.print layout) e.node

section Operands

variable (standard : v.Standard) {layout : Layout v} {e : Term v} {depth : Nat} {ts : List Content}
  {n : Node}

include standard in
theorem readsTo_of_operand (h : ReadsTo (operand v (nested v depth)) ts n) (precedence : Int) :
    ReadsTo (nested v (depth + 1) precedence) ts n := by
  intro t rest closes
  refine runs_expressionStep (R := fun m left => m.unlined = n ∧ left = t :: rest)
    (h t rest closes) ?_ ?_
  · rintro m _ ⟨hm, rfl⟩
    exact runs_operators_of_none (closes.binary?_eq_none standard) ⟨hm, rfl⟩ _
  · rintro m _ ⟨hm, rfl⟩
    refine ⟨t, rest, rfl, closes.equals, fun _ => ?_, fun _ => ⟨hm, rfl⟩⟩
    exact runs_conditionals_of_ne (closes.ne_mark (by decide)) ⟨hm, rfl⟩ _

theorem LeadsTo.runs (h : LeadsTo v depth ts n) {t : Content} (follows : Follows t)
    (stops : Stops t) (rest : List Content) :
    Runs (operand v (nested v depth)) (ts ++ t :: rest)
      fun m left => m.unlined = n ∧ left = t :: rest := by
  refine h t rest _ follows fun m fuel hm enough => ?_
  obtain ⟨fuel, rfl⟩ := Nat.exists_eq_succ_of_ne_zero (Nat.ne_zero_of_lt enough)
  exact runs_suffixes_of_stops stops ⟨hm, rfl⟩ fuel

include standard in
theorem LeadsTo.readsTo (h : LeadsTo v depth ts n) (precedence : Int) :
    ReadsTo (nested v (depth + 1) precedence) ts n :=
  readsTo_of_operand standard (fun _ rest closes => h.runs closes.follows closes.stops rest)
    precedence

theorem leadsTo_of_simple {t₀ : Content} (plain : t₀.1 ≠ .operator) (bare : t₀ ≠ mark "(")
    (h : ∀ t rest, Follows t → Runs (simple v (nested v depth)) (t₀ :: (ts ++ t :: rest))
      fun m left => m.unlined = n ∧ left = t :: rest) : LeadsTo v depth (t₀ :: ts) n := by
  intro t rest Q follows next
  refine runs_current fun line => ?_
  dsimp only
  rw [if_neg (by simpa [Content.onLine] using plain)]
  refine runs_if (fun paren => ?_) fun _ => ?_
  · exact absurd (of_decide_eq_true ((test_mark t₀ "(").symm.trans paren)) bare
  · refine (h t rest follows).bind ?_
    rintro m _ ⟨hm, rfl⟩
    exact runs_remaining (next m _ hm (by simp))

theorem Readable.enclosed (h : Readable layout e)
    (short : (enclosed (e.print layout)).length ≤ depth + 1) :
    LeadsTo v depth (enclosed (e.print layout)) e.node := by
  intro t rest Q _ next
  rw [Content.enclosed, cons_append, append_assoc]
  refine runs_current fun line => ?_
  dsimp only
  rw [if_neg (by simp [Content.onLine])]
  refine runs_if (fun _ => ?_) fun bare => absurd rfl bare
  refine runs_next (by simp) fun _ => ?_
  have inner : (e.print layout).length ≤ depth := by
    rw [length_enclosed] at short
    omega
  refine (h.whole depth inner (mark ")") (t :: rest) (closes_mark (by decide))).bind ?_
  rintro m _ ⟨hm, rfl⟩
  exact runs_expectMark fun _ => runs_remaining (next m _ hm (by simp))

theorem Readable.operand (h : Readable layout e)
    (short : (layout.operand e (e.print layout)).length ≤ depth + 1) :
    LeadsTo v depth (layout.operand e (e.print layout)) e.node := by
  unfold Layout.operand at short ⊢
  split
  · next encloses =>
    rw [if_pos encloses] at short
    exact h.enclosed short
  · next bare =>
    rw [if_neg bare] at short
    exact h.first (by simp_all) depth short

theorem Readable.operand_opens (h : Readable layout e) :
    ∃ t ts, layout.operand e (e.print layout) = t :: ts ∧ Opens t := by
  unfold Layout.operand
  split
  · exact ⟨mark "(", _, rfl, .inr ⟨"(", by decide, rfl⟩⟩
  · exact h.opens

include standard

theorem Readable.readsTo (h : Readable layout e)
    (short : (layout.operand e (e.print layout)).length ≤ depth) (precedence : Int) :
    ReadsTo (nested v depth precedence) (layout.operand e (e.print layout)) e.node := by
  obtain ⟨t, ts, some, -⟩ := h.operand_opens
  cases depth with
  | zero => simp [some] at short
  | succ depth => exact (h.operand short).readsTo standard precedence

theorem readable_of_leadsTo (opens : ∃ t ts, e.print layout = t :: ts ∧ Opens t)
    (first : ∀ depth, (e.print layout).length ≤ depth + 1 →
      LeadsTo v depth (e.print layout) e.node) : Readable layout e := by
  refine ⟨opens, fun _ => first, fun depth short => ?_⟩
  obtain ⟨t, ts, some, -⟩ := opens
  cases depth with
  | zero => simp [some] at short
  | succ depth => exact (first depth short).readsTo standard 0

theorem readable_of_token {t₀ : Content} (printed : e.print layout = [t₀])
    (kind : t₀.1 ∈ [.name, .number, .string])
    (h : ∀ depth t rest, Follows t → Runs (simple v (nested v depth)) (t₀ :: t :: rest)
      fun m left => m.unlined = e.node ∧ left = t :: rest) : Readable layout e := by
  have opens : Opens t₀ := .inl (mem_append_left [Token.Kind.operator] kind)
  refine readable_of_leadsTo standard ⟨t₀, [], printed, opens⟩ fun depth _ => ?_
  rw [printed]
  refine leadsTo_of_simple ?_ ?_ (h depth)
  · intro same
    simp [same] at kind
  · rintro rfl
    simp at kind

theorem readable_name (n : Variable) : Readable layout (.name n) := by
  refine readable_of_token standard (by rw [print]) (by simp) fun depth t rest follows => ?_
  refine runs_current fun line => runs_next (by simp) fun _ => ?_
  simp only [Content.onLine, reserved?_eq_none]
  refine runs_testMark (runs_if (fun paren => ?_) fun _ => runs_pure ⟨by rw [node]; rfl, rfl⟩)
  exact absurd (of_decide_eq_true paren) follows.ne_paren

theorem readable_bool (b : Bool) : Readable layout (.bool b) := by
  refine readable_of_token standard (by rw [print]) (by simp) fun depth t rest _ => ?_
  refine runs_current fun line => runs_next (by simp) fun _ => ?_
  have word : reserved? (if b then "true" else "false") = some (.bool b) := by
    cases b <;> simp [reserved?_words]
  simp only [Content.onLine, word]
  exact runs_pure ⟨by rw [node]; rfl, rfl⟩

theorem readable_null : Readable layout .null := by
  refine readable_of_token standard (by rw [print]) (by simp) fun depth t rest _ => ?_
  refine runs_current fun line => runs_next (by simp) fun _ => ?_
  simp only [Content.onLine, reserved?_words]
  exact runs_pure ⟨by rw [node]; rfl, rfl⟩

theorem readable_int (n : Whole) : Readable layout (.int n) := by
  refine readable_of_token standard (by rw [print]) (by simp) fun depth t rest _ => ?_
  refine runs_current fun line => runs_next (by simp) fun _ => ?_
  simp only [numberConstant?_repr]
  exact runs_pure ⟨by rw [node]; rfl, rfl⟩

theorem readable_string (s : String) : Readable layout (.string s) := by
  refine readable_of_token standard (by rw [print]) (by simp) fun depth t rest follows => ?_
  have plain {kind : Token.Kind} (other : kind ∉ [.printEnd, .operator, .punctuation]) :
      t.test kind [] = false := by
    simp only [Content.test, Bool.and_eq_false_iff, beq_eq_false_iff_ne]
    exact .inl fun same => other (same ▸ follows.kind)
  refine runs_current fun line => runs_remaining ?_
  refine Runs.bind (P := fun ns left => (∃ line, ns = [Node.ofString s line]) ∧ left = t :: rest)
    (runs_nextIf rfl (by simp) fun line => ?_) ?_
  · exact runs_nextIf_of_not (plain (by simp))
      (runs_nextIf_of_not (plain (by simp)) (runs_pure ⟨⟨line, rfl⟩, rfl⟩))
  · rintro _ _ ⟨⟨line, rfl⟩, rfl⟩
    exact runs_pure ⟨by rw [node]; rfl, rfl⟩

end Operands

/-! ## Lists -/

section Lists

variable {α : Type} {loop : Nat → List Node → Parse (List Node)} {close : String}

def lead : List Node → List Content
  | [] => []
  | _ :: _ => [mark ","]

/-- One round of a loop reads a row of tokens as some trees. The loop goes on with what stands
behind the row, a comma or the mark at which it ends. -/
def Steps (loop : Nat → List Node → Parse (List Node)) (close : String) (row : List Content)
    (trees : List Node) : Prop :=
  ∀ fuel done m rest Q, m ∈ [",", close] →
    (∀ ns, ns ≠ [] → ns.map Node.unlined = trees →
      Runs (loop fuel (ns.reverse ++ done)) (mark m :: rest) Q) →
    Runs (loop (fuel + 1) done) (lead done ++ (row ++ mark m :: rest)) Q

theorem length_le_of_mem_separated {rows : List (List Content)} {row : List Content}
    (h : row ∈ rows) : row.length ≤ (separated rows).length := by
  cases rows with
  | nil => cases h
  | cons first others =>
    rw [separated, length_append]
    rcases mem_cons.1 h with rfl | h
    · omega
    · have inside : (mark "," :: row).Sublist (others.flatMap (mark "," :: ·)) :=
        sublist_flatten_of_mem (mem_map_of_mem h)
      have := inside.length_le
      simp only [length_cons] at this
      omega

theorem length_le_separated {rows : List (List Content)} (full : ∀ row ∈ rows, row ≠ []) :
    rows.length ≤ (separated rows).length := by
  cases rows with
  | nil => simp
  | cons first others =>
    have some := length_pos_iff.2 (full first mem_cons_self)
    clear full
    have commas : others.length ≤ (others.flatMap (mark "," :: ·)).length := by
      induction others with
      | nil => simp
      | cons row others ih =>
        simp only [flatMap_cons, length_append, length_cons]
        omega
    rw [separated, length_append, length_cons]
    omega

theorem exists_mark (rows : List (List Content)) (close : String) (rest : List Content) :
    ∃ m left, rows.flatMap (mark "," :: ·) ++ mark close :: rest = mark m :: left ∧
      m ∈ [",", close] := by
  cases rows with
  | nil => exact ⟨close, rest, rfl, by simp⟩
  | cons row rows => exact ⟨",", _, rfl, by simp⟩

theorem runs_stop {l more : Nat → List Node → Parse (List Node)}
    (succ : ∀ fuel done, l (fuel + 1) done = do
      if ← testMark close then return done.reverse
      more fuel done) (fuel : Nat) (done : List Node) (rest : List Content) :
    Runs (l (fuel + 1) done) (mark close :: rest)
      fun ns left => ns = done.reverse ∧ left = mark close :: rest := by
  rw [succ]
  refine runs_testMark (runs_if (fun _ => runs_pure ⟨rfl, rfl⟩) fun other => ?_)
  exact absurd (by simp) other

def behind (done : List Node) : List (List Content) → List Content
  | [] => []
  | first :: others => lead done ++ (first ++ others.flatMap (mark "," :: ·))

theorem behind_nil (rows : List (List Content)) : behind [] rows = separated rows := by
  cases rows <;> rfl

theorem behind_of_ne_nil {done : List Node} (some : done ≠ []) (rows : List (List Content)) :
    behind done rows = rows.flatMap (mark "," :: ·) := by
  obtain ⟨_, _, rfl⟩ := exists_cons_of_ne_nil some
  cases rows <;> rfl

section Loop

variable {items : List α} {row : α → List Content} {trees : α → List Node}
  (stop : ∀ fuel done rest, Runs (loop (fuel + 1) done) (mark close :: rest)
    fun ns left => ns = done.reverse ∧ left = mark close :: rest)

include stop

theorem runs_loop (steps : ∀ a ∈ items, Steps loop close (row a) (trees a)) (fuel : Nat)
    (enough : items.length < fuel) (rest : List Content) (done : List Node) :
    Runs (loop fuel done) (behind done (items.map row) ++ mark close :: rest)
      fun ns left => ns.map Node.unlined = done.reverse.map Node.unlined ++ items.flatMap trees ∧
        left = mark close :: rest := by
  obtain ⟨fuel, rfl⟩ := Nat.exists_eq_succ_of_ne_zero (Nat.ne_zero_of_lt enough)
  induction items generalizing fuel done with
  | nil => exact (stop fuel done rest).mono fun ns left ⟨hns, hleft⟩ => ⟨by simp [hns], hleft⟩
  | cons a items ih =>
    obtain ⟨first, steps⟩ := forall_mem_cons.1 steps
    rw [length_cons, Nat.succ_lt_succ_iff] at enough
    obtain ⟨fuel, rfl⟩ := Nat.exists_eq_succ_of_ne_zero (Nat.ne_zero_of_lt enough)
    obtain ⟨m, left, follows, hm⟩ := exists_mark (items.map row) close rest
    rw [map_cons, behind, append_assoc, append_assoc, follows]
    refine first (fuel + 1) done m left _ hm fun ns some hns => ?_
    have next := ih steps (ns.reverse ++ done) fuel enough
    rw [behind_of_ne_nil (by simp [some]), follows] at next
    refine next.mono ?_
    rintro all left ⟨hall, hleft⟩
    exact ⟨by rw [hall]; simp [← hns], hleft⟩

/-- The tokens that are left are rounds enough, and no item is longer than the list. -/
theorem runs_loop_remaining {depth : Nat} (trees : α → List Node)
    (steps : ∀ a ∈ items, (row a).length ≤ depth → Steps loop close (row a) (trees a))
    (full : ∀ a ∈ items, row a ≠ []) (short : (separated (items.map row)).length ≤ depth)
    (rest : List Content) :
    Runs (loop (separated (items.map row) ++ mark close :: rest).length [])
      (separated (items.map row) ++ mark close :: rest)
      fun ns left => ns.map Node.unlined = items.flatMap trees ∧ left = mark close :: rest := by
  have rows := length_le_separated (forall_mem_map.2 full)
  rw [length_map] at rows
  have each (a : α) (ha : a ∈ items) : Steps loop close (row a) (trees a) :=
    steps a ha ((length_le_of_mem_separated (mem_map_of_mem ha)).trans short)
  have read := runs_loop stop each (separated (items.map row) ++ mark close :: rest).length
    (by simp only [length_append, length_cons]; omega) rest []
  rwa [behind_nil] at read

end Loop

variable {layout : Layout v} {depth : Nat} (standard : v.Standard)

/-! ### Arrays -/

theorem steps_item {e : Term v} (h : Readable layout e) (short : (e.print layout).length ≤ depth) :
    Steps (arrayItems (nested v depth)) "]" (e.print layout) [e.node] := by
  intro fuel done m rest Q hm next
  have closes : Closes (mark m) :=
    closes_mark ((by decide : ∀ m ∈ [",", "]"], m ∈ [")", "]", "\x7d", ",", ":"]) m hm)
  obtain ⟨t, ts, first, opens⟩ := h.opens
  have self := h.whole depth short (mark m) rest closes
  rw [first] at self ⊢
  have read : Runs (do
      if ← atEnd then return done.reverse
      let item ← nested v depth 0
      arrayItems (nested v depth) fuel (item :: done)) (t :: ts ++ mark m :: rest) Q := by
    refine runs_atEnd opens.ne_end (runs_if (fun ended => absurd ended (by decide)) fun _ => ?_)
    refine self.bind ?_
    rintro n _ ⟨hn, rfl⟩
    exact next [n] (by simp) (by simp [hn])
  have other : decide (t = mark "]") = false := decide_eq_false (opens.ne_mark (by decide))
  cases done with
  | nil =>
    refine runs_testMark (runs_if (fun ended => absurd ended (by simp [other])) fun _ => ?_)
    exact runs_if (fun other => absurd other (by decide)) fun _ => read
  | cons n done =>
    refine runs_testMark (runs_if (fun same => absurd same (by simp)) fun _ => ?_)
    refine runs_if (fun _ => runs_expectMark fun _ => ?_) fun other => absurd rfl other
    exact runs_testMark (runs_if (fun ended => absurd ended (by simp [other])) fun _ => read)

theorem runs_array {items : List (Term v)} (h : ∀ e ∈ items, Readable layout e)
    (short : (separated (prints layout items)).length ≤ depth) (rest : List Content) :
    Runs (array (nested v depth))
      (mark "[" :: (separated (prints layout items) ++ mark "]" :: rest))
      fun n left => n.unlined = .plain .array 0 (nodes items) ∧ left = rest := by
  have stop := runs_stop (l := arrayItems (nested v depth)) fun _ _ => rfl
  rw [prints_eq] at short ⊢
  refine runs_expectMark fun line => runs_remaining ?_
  have full (e : Term v) (he : e ∈ items) : e.print layout ≠ [] := by
    obtain ⟨t, ts, first, -⟩ := (h e he).opens
    rw [first]
    exact cons_ne_nil _ _
  refine (runs_loop_remaining stop (fun e => [e.node])
    (fun e he short => steps_item (h e he) short) full short rest).bind ?_
  rintro ns _ ⟨hns, rfl⟩
  refine runs_expectMark fun _ => runs_pure ⟨?_, rfl⟩
  simp [Node.plain, hns, nodes_eq, map_eq_flatMap]

/-! ### Arguments -/

theorem opens_labelled (label : Option Variable) {e : Term v} (h : Readable layout e) :
    ∃ t ts, labelled label (e.print layout) = t :: ts ∧ Opens t := by
  cases label with
  | none => exact h.opens
  | some name => exact ⟨_, _, rfl, .inl (by simp)⟩

include standard

theorem runs_argument (label : Option Variable) {e : Term v} (h : Readable layout e)
    (short : (labelled label (e.print layout)).length ≤ depth) {m : String}
    (hm : m ∈ [",", ")"]) (rest : List Content) :
    Runs (argument (nested v depth)) (labelled label (e.print layout) ++ mark m :: rest)
      fun n left => n.unlined = e.node.labelled label ∧ left = mark m :: rest := by
  have closes : Closes (mark m) :=
    closes_mark ((by decide : ∀ m ∈ [",", ")"], m ∈ [")", "]", "\x7d", ",", ":"]) m hm)
  have colon : mark m ≠ mark ":" := by
    rintro same
    cases same
    exact absurd hm (by decide)
  cases label with
  | none =>
    refine (h.whole depth short _ rest closes).bind ?_
    rintro n _ ⟨hn, rfl⟩
    refine runs_if (fun _ => ?_) fun _ => runs_pure ⟨hn, rfl⟩
    refine runs_nextIf_of_not rfl (runs_nextIf_of_not ?_ (runs_pure ⟨hn, rfl⟩))
    rw [test_mark, decide_eq_false colon]
  | some name =>
    obtain ⟨t, ts, first, opens⟩ := h.opens
    have inner : (e.print layout).length + 2 ≤ depth := short
    -- a label is read as an expression; only the sign after it makes it a label
    have self := (readable_name standard name : Readable layout (.name name)).whole depth
      (by simp [print]; omega) (.operator, "=") (e.print layout ++ mark m :: rest)
      (.inr (.inl rfl))
    refine self.bind ?_
    rintro n _ ⟨hn, rfl⟩
    have kind : n.kind = .ident := by rw [← Node.kind_unlined, hn]; rfl
    have text : n.text "name" = name.1 := by rw [← Node.text_unlined, hn]; rfl
    refine runs_if (fun _ => ?_) fun other => absurd (by simp [kind]) other
    refine runs_nextIf rfl (by simp) fun _ => ?_
    rw [first, cons_append]
    refine runs_nextIf_of_not (by simp [test_mark, opens.ne_mark]) ?_
    refine runs_if (fun _ => ?_) fun other => absurd rfl other
    rw [← cons_append, ← first]
    refine (h.whole depth (by omega) _ rest closes).bind ?_
    rintro value _ ⟨hvalue, rfl⟩
    refine runs_pure ⟨?_, rfl⟩
    simp [Node.labelled, Node.ofCall, hvalue, text]

theorem steps_argument (label : Option Variable) {e : Term v} (h : Readable layout e)
    (short : (labelled label (e.print layout)).length ≤ depth) :
    Steps (argumentList (nested v depth)) ")" (labelled label (e.print layout))
      [e.node.labelled label] := by
  intro fuel done m rest Q hm next
  have read : Runs (do
      if ← atEnd then return done.reverse
      let value ← argument (nested v depth)
      argumentList (nested v depth) fuel (value :: done))
      (labelled label (e.print layout) ++ mark m :: rest) Q := by
    obtain ⟨t, ts, first, opens⟩ := opens_labelled label h
    have self := runs_argument standard label h short hm rest
    rw [first] at self ⊢
    refine runs_atEnd opens.ne_end (runs_if (fun ended => absurd ended (by decide)) fun _ => ?_)
    refine self.bind ?_
    rintro n _ ⟨hn, rfl⟩
    exact next [n] (by simp) (by simp [hn])
  cases done with
  | nil =>
    obtain ⟨t, ts, first, opens⟩ := opens_labelled label h
    rw [first] at read ⊢
    refine runs_testMark (runs_if (fun ended => ?_) fun _ => ?_)
    · exact absurd (of_decide_eq_true ended) (opens.ne_mark (by decide))
    · exact runs_if (fun other => absurd other (by decide)) fun _ => read
  | cons n done =>
    refine runs_testMark (runs_if (fun same => absurd same (by simp)) fun _ => ?_)
    exact runs_if (fun _ => runs_expectMark fun _ => read) fun other => absurd rfl other

theorem runs_arguments {args : List (Option Variable × Term v)}
    (h : ∀ a ∈ args, Readable layout a.2)
    (short : (separated (printArguments layout args)).length ≤ depth) (rest : List Content) :
    Runs (arguments (nested v depth))
      (enclosed (separated (printArguments layout args)) ++ rest)
      fun n left => n.unlined = .plain .arguments 0 (argumentNodes args) ∧ left = rest := by
  have stop := runs_stop (l := argumentList (nested v depth)) fun _ _ => rfl
  rw [printArguments_eq] at short ⊢
  rw [enclosed, cons_append, append_assoc]
  refine runs_expectMark fun line => runs_remaining ?_
  have full (a : Option Variable × Term v) (ha : a ∈ args) : labelled a.1 (a.2.print layout) ≠ [] := by
    obtain ⟨t, ts, first, -⟩ := opens_labelled a.1 (h a ha)
    rw [first]
    exact cons_ne_nil _ _
  refine (runs_loop_remaining stop (fun a => [a.2.node.labelled a.1])
    (fun a ha short => steps_argument standard a.1 (h a ha) short) full short rest).bind ?_
  rintro ns _ ⟨hns, rfl⟩
  refine runs_expectMark fun _ => runs_pure ⟨?_, rfl⟩
  simp [Node.plain, hns, argumentNodes_eq, map_eq_flatMap]

/-! ### Hashes -/

theorem runs_hashKey {e : Term v} (h : Readable layout e)
    (short : (e.key (e.print layout)).length ≤ depth) (rest : List Content) :
    Runs (hashKey (nested v depth)) (e.key (e.print layout) ++ mark ":" :: rest)
      fun n left => n.unlined = e.node ∧ left = mark ":" :: rest := by
  unfold key at short ⊢
  split
  · next key =>
    cases e with
    | int n =>
      rw [print]
      refine runs_current fun line => runs_next (by simp) fun _ => ?_
      simp only [numberConstant?_repr]
      exact runs_pure ⟨rfl, rfl⟩
    | string s =>
      rw [print]
      exact runs_current fun line => runs_next (by simp) fun _ => runs_pure ⟨rfl, rfl⟩
    | _ => cases key
  · next other =>
    rw [if_neg other] at short
    cases depth with
    | zero => simp [enclosed] at short
    | succ depth =>
      have self := (h.enclosed short).readsTo standard 0 (mark ":") rest (closes_mark (by decide))
      refine runs_current fun line => ?_
      exact runs_if (fun _ => self) fun bare => absurd rfl bare

theorem steps_entry {key value : Term v} (hkey : Readable layout key)
    (hvalue : Readable layout value)
    (short : (key.key (key.print layout) ++ mark ":" :: value.print layout).length ≤ depth) :
    Steps (hashItems (nested v depth)) "\x7d"
      (key.key (key.print layout) ++ mark ":" :: value.print layout) [key.node, value.node] := by
  intro fuel done m rest Q hm next
  have closes : Closes (mark m) :=
    closes_mark ((by decide : ∀ m ∈ [",", "\x7d"], m ∈ [")", "]", "\x7d", ",", ":"]) m hm)
  rw [length_append, length_cons] at short
  have first : Runs (hashKey (nested v depth)) _ _ :=
    runs_hashKey standard hkey (by omega) (value.print layout ++ mark m :: rest)
  have second := hvalue.whole depth (by omega) (mark m) rest closes
  -- the first entry and the later ones differ only in the comma before them
  have read : Runs (do
      let key ← hashKey (nested v depth)
      let _ ← expectMark "A hash key must be followed by a colon (:)" ":"
      let value ← nested v depth 0
      hashItems (nested v depth) fuel (value :: key :: done))
      (key.key (key.print layout) ++ mark ":" :: (value.print layout ++ mark m :: rest)) Q := by
    refine first.bind ?_
    rintro k _ ⟨hk, rfl⟩
    refine runs_expectMark fun _ => second.bind ?_
    rintro n _ ⟨hn, rfl⟩
    exact next [k, n] (by simp) (by simp [hk, hn])
  rw [append_assoc, cons_append]
  obtain ⟨t, ts, start, opens⟩ : ∃ t ts, key.key (key.print layout) = t :: ts ∧ Opens t := by
    unfold Term.key
    split
    · exact hkey.opens
    · exact ⟨mark "(", _, rfl, .inr ⟨"(", by decide, rfl⟩⟩
  rw [start] at read ⊢
  have other : decide (t = mark "\x7d") = false := decide_eq_false (opens.ne_mark (by decide))
  cases done with
  | nil =>
    refine runs_testMark (runs_if (fun ended => absurd ended (by simp [other])) fun _ => ?_)
    exact runs_if (fun other => absurd other (by decide)) fun _ => read
  | cons n done =>
    refine runs_testMark (runs_if (fun same => absurd same (by simp)) fun _ => ?_)
    refine runs_if (fun _ => runs_expectMark fun _ => ?_) fun other => absurd rfl other
    exact runs_testMark (runs_if (fun ended => absurd ended (by simp [other])) fun _ => read)

theorem runs_hash {entries : List (Term v × Term v)}
    (h : ∀ entry ∈ entries, Readable layout entry.1 ∧ Readable layout entry.2)
    (short : (separated (printEntries layout entries)).length ≤ depth) (rest : List Content) :
    Runs (hash (nested v depth))
      (mark "\x7b" :: (separated (printEntries layout entries) ++ mark "\x7d" :: rest))
      fun n left => n.unlined = .plain .hash 0 (entryNodes entries) ∧ left = rest := by
  have stop := runs_stop (l := hashItems (nested v depth)) fun _ _ => rfl
  rw [printEntries_eq] at short ⊢
  refine runs_expectMark fun line => runs_remaining ?_
  refine (runs_loop_remaining stop (fun entry => [entry.1.node, entry.2.node])
    (fun entry hentry short => steps_entry standard (h entry hentry).1 (h entry hentry).2 short)
    (fun _ _ => append_ne_nil_of_right_ne_nil _ (cons_ne_nil _ _)) short rest).bind ?_
  rintro ns _ ⟨hns, rfl⟩
  refine runs_expectMark fun _ => runs_pure ⟨?_, rfl⟩
  simp [Node.plain, hns, entryNodes_eq]

end Lists

end Stencil.Parse
