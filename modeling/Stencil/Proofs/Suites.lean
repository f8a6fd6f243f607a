import Stencil.Proofs.Printing

/-!
# Statements are written as rows and suites

Every statement of a tree is laid out (`Listing.laid_lower`), and so is a whole program after its first
three lines (`Listing.laid_program`).

## What is here

* A row is put together from words and from expressions that stay on one line. The lemmas that start
  with `writes_` say of each sort of row what it starts and ends with, which is all that a layout asks:
  a row that ends with a colon opens a suite, and a row that starts with `elif` or `else` goes on with
  the one above.
* The lemmas that start with `laid_` put rows and suites together, one for each sort of statement:
  branches, loops, blocks, assignments, captures, inclusions.
* `laid_lower` is an induction on the tree of a statement. What it needs of the tree is that its parts
  stand where they belong (`Node.IsStatement`), and nothing of the texts in it.
* `laid_program` adds the functions and the table around the statements of a module.
-/

namespace Stencil

open Writer

namespace Listing

open Piece (Flat)

/-! ## Conditions -/

variable {p values names : Piece} {ps : List Piece} {n : Node} {k v : String} {b : Emit}

theorem writes_condition {word : String} (hword : OneLine word) (h : Flat p) :
    Writes (Framed word (· = ':')) (all [start [word, "this.to_bool("], p.emit, raw "):\n"]) := by
  refine writes_words hword (by decide) (h.emit.oneLine.cons (Adds.last (adds_raw ?_)))
  exact ⟨"):", rfl, by decide, ':', by decide, rfl⟩

/-- The conditions and the bodies of some branches, in turn. -/
def turns (pairs : List (Piece × Piece)) : List Piece := pairs.flatMap fun p => [p.1, p.2]

/-- A condition on one line and a body that is laid out. -/
def Tests (p : Piece × Piece) : Prop := Flat p.1 ∧ Laid false p.2.emit

/-- The branches after the first one, and what goes on after them. -/
theorem laid_others {ps : List (Piece × Piece)} (h : ∀ p ∈ ps, Tests p) {g : Emit} (hg : Laid true g) :
    Laid true fun w => g (branches "elif " (turns ps) w) := by
  induction ps with
  | nil => exact hg
  | cons p ps ih =>
    obtain ⟨first, rest⟩ := List.forall_mem_cons.1 h
    exact Laid.suite "elif " (by decide) (writes_condition (by decide) first.1) first.2 (ih rest)

theorem laid_else (h : Laid false p.emit) :
    Laid true (if p.node.isAbsent then id else all [Writer.line "else:", suite p.emit]) := by
  have head : Framed "else" (· = ':') "else:" := ⟨by decide, by decide, ':', by decide, rfl⟩
  split
  · exact .done .skip
  · exact Laid.suite "else" (by decide) (writes_line head) h .skip

theorem laid_branch {tests otherwise : Piece} {ps : List (Piece × Piece)} (pairs : ∀ p ∈ ps, Tests p)
    (some : ps ≠ []) (hps : tests.parts = turns ps) (without : Laid false otherwise.emit) :
    Laid false (branch n tests otherwise) := by
  unfold branch
  rw [hps]
  refine .cons (.mark _) ?_
  -- the first pair opens the tests, and all others go on with them
  cases ps with
  | nil => exact absurd rfl some
  | cons p ps =>
    obtain ⟨first, rest⟩ := List.forall_mem_cons.1 pairs
    exact Laid.suite "if " (by decide) (writes_condition (by decide) first.1) first.2
      (laid_others rest (laid_else without))

/-! ## Loops -/

theorem laid_loopStart (conditional : Bool) : Laid false (loopStart conditional) := by
  refine .cons .line (.last (.ite .skip ?_))
  exact .cons .line <| .cons .line <| .cons .line (.last .line)

theorem laid_loopEnd (n : Node) : Laid false (loopEnd n) := by
  refine .cons (.ite .line .skip) (.last (.ite ?_ .skip))
  refine .cons .line <| .cons .line <| .cons .line (.last (.ite .skip ?_))
  exact .cons .line <| .cons .line (.last .line)

theorem writes_target (key : String) (hk : Shut k) : Writes (Framed "context[" Quiet)
    (all [start ["context["], string key, raw ("] = " ++ k ++ "\n")]) := by
  have tail : Tail Quiet ("] = " ++ k ++ "\n") := tail_of_shut (Shut.append (by decide) hk)
  exact writes_word (by decide) <| (adds_string key).closed.oneLine.cons (adds_raw tail).last

theorem writes_part (word ending : String) (hword : OneLine word) (h : Flat p) (shut : Shut ending) :
    Writes (Framed word Quiet) (all [start [word], p.emit, raw (ending ++ "\n")]) :=
  writes_word hword (h.emit.oneLine.cons (Adds.last (adds_raw (tail_of_shut shut))))

theorem laid_round (key value : String) (hk : Shut k) (hv : Shut v) (h : Laid false b) :
    Laid false (all [start ["context["], string key, raw ("] = " ++ k ++ "\n"), start ["context["],
      string value, raw ("] = " ++ v ++ "\n"), b]) :=
  .append (.row (by decide) (writes_target key hk))
    (.append (.row (by decide) (writes_target value hv)) h.last)

theorem writes_for (hk : Shut k) (hv : Shut v) : Writes (Framed "for " (· = ':'))
    (Writer.line ("for " ++ k ++ ", " ++ v ++ " in context[\"_seq\"]:")) := by
  refine writes_line (framed_between ?_ ?_ hv.oneLine (by decide) ':' (by decide) rfl)
  · simp only [String.append_assoc, String.toList_append]
    exact List.prefix_append _ _
  · exact oneLine_append (oneLine_append (by decide) hk.oneLine) (by decide)

theorem laid_loop {sequence body otherwise : Piece} (hsequence : Flat sequence)
    (hbody : Laid false body.emit) (hotherwise : Laid false otherwise.emit) :
    Laid false (loop n sequence body otherwise) := by
  have iterate := writes_part "context[\"_seq\"] = this.iterate(" ")" (by decide) hsequence (by decide)
  have started : Laid false
      (all [if n.flag "else" then Writer.line "context[\"_iterated\"] = False" else id,
        if n.flag "with_loop" then loopStart (n.flag "ifexpr") else id]) :=
    .cons (.ite .line .skip) (.last (.ite (laid_loopStart _) .skip))
  have instead : Laid false (all [Writer.line "if not context[\"_iterated\"]:", suite otherwise.emit]) :=
    .suite_all (by decide) (writes_line (framed_self (by decide) (x := ':') (by decide) rfl)) hotherwise
      .skip
  have leave : Writes (Framed "this.leave_scope(context, [" Quiet)
      (all [start ["this.leave_scope(context, ["], string (n.text "key_target"), raw ", ",
        string (n.text "value_target"), raw "])\n"]) :=
    writes_word (by decide) <| .quoted <| .word <|
      .quoted (Adds.last (adds_raw (tail_of_shut (c := "])") (by decide))))
  have rounds {k v : String} (hk : Shut k) (hv : Shut v) :=
    Laid.suite_all (by decide) (writes_for hk hv)
      (laid_round (n.text "key_target") (n.text "value_target") hk hv hbody)
      (.cons (.ite (c := n.flag "else") instead .skip) (.row (by decide) leave))
  unfold loop
  exact .seq (.cons (.mark _) (.cons .line
    ((Laid.row (by decide) iterate).append started)))
    (.named (by decide) fun k hk => .named (by decide) fun v hv => rounds hk hv)

/-! ## Functions -/

/-- A function that collects what is shown: its body stands between two rows of its own. -/
theorem laid_showing {header : String} (h : Framed "def " (· = ':') header) (body : Laid false b)
    {es : List Emit} (rest : Laid false (all es)) : Laid false (all (showing header b :: es)) :=
  .suite_all (by decide) (writes_line h) (.cons .line
    (body.cons (.last .line))) rest

theorem laid_block (short : OneLine (n.text "name")) {body : Piece} (h : Laid false body.emit) :
    Laid false (all [mark n.line,
      showing ("def block_" ++ n.text "name" ++ "(context, blocks):") body.emit]) :=
  .cons (.mark _) (laid_showing
    (framed_between (by decide) (by decide) short (by decide) ':' (by decide) rfl) h .skip)

/-! ## Assignments -/

structure Starts (word s : String) : Prop where
  oneLine : OneLine s
  starts : word.toList <+: s.toList

theorem writes_assigned {word : String} {e : Emit} {es : List Emit} (target : Adds (Starts word) e)
    (value : Adds (Tail Quiet) (all es)) :
    Writes (Framed word Quiet) (all (start [] :: e :: es)) := by
  refine writes_start [] (Q := fun s => ∃ c, s = c ++ "\n" ∧ Framed word Quiet c)
    (target.seq value ?_) fun s ⟨c, split, framed⟩ => ⟨c, split, ?_⟩
  · intro s t hs ht
    obtain ⟨c, rfl, oneLine, x, last, hx⟩ := ht.split
    refine ⟨s ++ c, String.append_assoc.symm, oneLine_append hs.oneLine oneLine, ?_, x, ?_, hx⟩
    · rw [String.toList_append]
      exact hs.starts.trans (List.prefix_append _ _)
    · exact getLast?_append_of_last last
  · rw [show String.join [] = "" from rfl, String.empty_append]
    exact framed

theorem adds_ending (h : Flat p) :
    Adds (fun s => ∃ c, s = c ++ "\n" ∧ Closed c) (all [p.emit, raw "\n"]) :=
  h.emit.before (Adds.last (adds_raw (P := (· = "\n")) rfl)) fun s t hs ht => ⟨s, by rw [ht], hs⟩

/-- What an assignment may start with: a variable of the context. -/
def IsTarget (p : Piece) : Prop := Adds (Starts "context[") p.emit

theorem isTarget_lower (h : n.kind = .target) : IsTarget (lower n) := by
  have added : Adds (Starts "context[") (all [raw "context[", string (n.text "name"), raw "]"]) := by
    have rest : Adds OneLine (all [string (n.text "name"), raw "]"]) :=
      .quoted (adds_word (by decide)).last
    refine (adds_raw (P := (· = "context[")) rfl).before rest fun s t hs ht => ?_
    rw [hs]
    refine ⟨oneLine_append (by decide) ht, ?_⟩
    rw [String.toList_append]
    exact List.prefix_append _ _
  cases n with
  | absent => cases h
  | node kind line tag attrs children =>
    obtain rfl : kind = .target := h
    rw [IsTarget, Piece.emit, lower, Piece.emitWith_eq added.sticky]
    exact added

theorem writes_assignment {target value : Piece} (h : IsTarget target) (hvalue : Flat value) :
    Writes (Framed "context[" Quiet)
      (all [start [], target.emit, raw " = ", value.emit, raw "\n"]) :=
  writes_assigned h <| (adds_raw (s := " = ") (P := (· = " = ")) rfl).before (adds_ending hvalue)
    fun s t hs ⟨c, split, hc⟩ => by
      rw [hs, split, ← String.append_assoc]
      exact tail_of_shut (Shut.append_closed (by decide) hc)

/-- Assignments of several names are rows one below the other. -/
theorem laid_assignments (h : ∀ i, Flat (values.part i)) (targets : ∀ p ∈ ps, IsTarget p) (i : Nat) :
    Laid false (assignments values i ps) := by
  induction ps generalizing i with
  | nil => exact .skip
  | cons p ps ih =>
    obtain ⟨first, rest⟩ := List.forall_mem_cons.1 targets
    exact .append (.row (by decide) (writes_assignment first (h i))) (ih rest _).last

theorem laid_assign (capture : n.flag "capture" = false) (targets : ∀ p ∈ names.parts, IsTarget p)
    (h : ∀ i, Flat (values.part i)) : Laid false (assign n names values) := by
  unfold assign
  simp only [capture, Bool.false_eq_true, if_false]
  exact .seq (.mark _) (laid_assignments h targets 0)

theorem laid_capture (capture : n.flag "capture" = true) (target : IsTarget (names.part 0))
    (h : Laid false (values.part 0).emit) : Laid false (assign n names values) := by
  have header {k : String} (hk : Shut k) : Framed "def " (· = ':') ("def " ++ k ++ "():") :=
    framed_between (by decide) (by decide) hk.oneLine (by decide) ':' (by decide) rfl
  have tail {k : String} (hk : Shut k) : Tail Quiet (" = " ++ k ++ "()\n") :=
    tail_between (by decide) hk.oneLine (by decide : Shut "()")
  have laid (k : String) (hk : Shut k) := laid_showing (header hk) h (Laid.row (by decide)
    (writes_assigned target (adds_raw (tail hk)).last))
  unfold assign
  simp only [capture, if_true]
  exact .seq (.mark _) (.named (by decide) laid)

theorem laid_inclusion {template bindings : Piece} (htemplate : Flat template)
    (hbindings : Flat bindings) : Laid false (inclusion n template bindings) := by
  have given : Adds OneLine (if bindings.node.isAbsent then raw "None" else bindings.emit) := by
    split
    · exact adds_word (by decide)
    · exact hbindings.emit.oneLine
  have tail : Tail Quiet (", " ++ toString n.line ++ "))\n") :=
    tail_between (by decide) (closed_int n.line).oneLine (by decide : Shut "))")
  exact .cons (.mark _) (.row (by decide) <| writes_word (by decide) <|
    htemplate.emit.oneLine.cons <| .word <| given.cons <| .word <|
    (composes_adds.flagWord _).oneLine.cons <| .word <|
    (composes_adds.flagWord _).oneLine.cons (adds_raw tail).last)

/-! ## All statements -/

theorem laid_map {f : Piece → Emit} (h : ∀ p ∈ ps, Laid false (f p)) : Laid false (all (ps.map f)) := by
  induction ps with
  | nil => exact .skip
  | cons p ps ih =>
    obtain ⟨first, rest⟩ := List.forall_mem_cons.1 h
    exact first.cons (ih rest)

/-- The parts of a branch are read as pairs again. -/
theorem lowerAll_inTurn (pairs : List (Node × Node)) :
    lowerAll (Node.inTurn pairs) = turns (pairs.map fun p => (lower p.1, lower p.2)) := by
  induction pairs with
  | nil => rfl
  | cons pair pairs ih => exact congrArg (fun ps => lower pair.1 :: lower pair.2 :: ps) ih

/-- **Every statement is laid out.** -/
theorem laid_lower (h : n.IsStatement) : Laid false (lower n).emit := by
  induction h with
  | absent => exact .piece .skip
  | body inner ih => exact .piece (laid_map (forall_lowerAll ih))
  | text line tag attrs =>
    exact .piece (.cons (.mark _) (.row (by decide) <| writes_word (by decide) <|
      .quoted (adds_raw (tail_of_shut (c := ")") (by decide))).last))
  | print shown =>
    exact .piece (.cons (.mark _) (.row (by decide) <|
      writes_part "_out.append(this.to_string(" "))" (by decide) (flat_lower shown) (by decide)))
  | blockReference line tag attrs =>
    exact .piece (.cons (.mark _) (.row (by decide) <| writes_word (by decide) <|
      .quoted
        (adds_raw (tail_of_shut (c := ", context, blocks, True))") (by decide))).last))
  | inclusion named given => exact .piece (laid_inclusion (flat_lower named) (flat_lower given))
  | loopEnd line tag attrs => exact .piece (laid_loopEnd _)
  | loop items round without ihRound ihWithout =>
    exact .piece (laid_loop (flat_lower items) ihRound ihWithout)
  | @branch _ _ _ _ pairs _ some conditions bodies without ihBodies ihWithout =>
    refine .piece (laid_branch (List.forall_mem_map.2 fun p hp => ?_) ?_ (lowerAll_inTurn pairs)
      ihWithout)
    · exact ⟨flat_lower (conditions p hp), ihBodies p hp⟩
    · exact fun none => some (List.map_eq_nil_iff.1 none)
  | assign capture some targets assigned =>
    refine .piece (laid_assign ?_ (forall_lowerAll fun n hn => isTarget_lower (targets n hn).2)
      (composes_adds.each_getD (forall_lowerAll fun n hn => flat_lower (assigned n hn))))
    simp only [Node.flag, Node.attr?, Node.attrs, capture]
  | capture capture target shown ih =>
    refine .piece (laid_capture ?_ (isTarget_lower target.2) ih)
    simp only [Node.flag, Node.attr?, Node.attrs, capture]
  | block named short shown ih =>
    refine .piece (laid_block ?_ ih)
    simp only [Node.text, Node.attr?, Node.attrs, named]
    exact short

/-! ## Whole programs -/

/-- The first lines of a program, which are comments. -/
def preamble (name : String) : Emit :=
  all [Writer.line ("# Template " ++ Text.quoted name ++ "."),
    Writer.line "# Line markers refer to the template source.", raw "\n"]

theorem Starts.quoted (s : String) : Starts "\"" (Text.quoted s) where
  oneLine := oneLine_quoted s
  starts := by
    have split : (Text.quoted s).toList = ['"'] ++ (s.toList.flatMap Text.quotedChar ++ ['"']) := by
      rw [Text.quoted, String.toList_ofList, Text.quotedChars, List.singleton_append]
    rw [split]
    exact List.prefix_append _ _

theorem laid_blockEntry (short : OneLine (p.node.text "name")) : Laid false (blockEntry p) := by
  have tail : Tail Quiet (": block_" ++ p.node.text "name" ++ ",\n") :=
    tail_between (by decide) short (by decide : Shut ",")
  exact .row (by decide) (writes_assigned (adds_raw (Starts.quoted _)) (adds_raw tail).last)

theorem laid_parent (h : Flat p) : Laid false
    (if p.node.isAbsent then Writer.line "return None"
      else all [start ["return "], p.emit, raw "\n"]) := by
  have written : Writes (Framed "return " Quiet) (all [start ["return "], p.emit, raw "\n"]) := by
    refine writes_start ["return "] (adds_ending h) fun s ⟨c, split, hc⟩ => ⟨c, split, ?_⟩
    have shut : Shut ("return " ++ c) := Shut.append_closed (by decide) hc
    refine ⟨shut.oneLine, ?_, shut.last⟩
    rw [String.toList_append]
    exact List.prefix_append _ _
  exact .ite .line (.row (by decide) written)

/-- The table that a program returns, with the names of its blocks. -/
def returned (name : String) (entries : Emit) : List Emit :=
  [Writer.line "return \x7b", Writer.indent, start ["\"name\": "], string name, raw ",\n",
    Writer.line "\"display\": do_display,", Writer.line "\"parent\": get_parent,",
    Writer.line "\"blocks\": \x7b", Writer.indent, entries, Writer.outdent,
    Writer.line "\x7d,", Writer.outdent, Writer.line "\x7d"]

theorem laid_returned (name : String) {entries : Emit} (h : Laid false entries) :
    Laid false (all (returned name entries)) := by
  have opening {c : String} (oneLine : OneLine c) (brace : c.toList.getLast? = some '{') :
      Writes (Framed c (· = '{')) (Writer.line c) := writes_line (framed_self oneLine brace rfl)
  have closing {c : String} (shut : Shut c) (starts : "\x7d".toList <+: c.toList) :
      Writes (Framed "\x7d" Quiet) (Writer.line c) := writes_line ⟨shut.oneLine, starts, shut.last⟩
  have named : Writes (Framed "\"name\": " Quiet)
      (all [start ["\"name\": "], string name, raw ",\n"]) :=
    writes_word (by decide) <| .quoted
      (adds_raw (tail_of_shut (c := ",") (by decide))).last
  have blocks := Laid.table_all (by decide)
    (opening (c := "\"blocks\": \x7b") (by decide) (by decide)) h.last
    (closing (c := "\x7d,") (by decide) (by decide))
  exact .table_all (by decide) (opening (by decide) (by decide))
    (.append (.row (by decide) named) <| .cons .line <| .cons .line blocks)
    (closing (by decide) (by decide))

theorem oneLine_blockName {b : Node} (h : b.IsStatement) (kind : b.kind = .block) :
    OneLine (b.text "name") := by
  cases h with
  | block named short shown =>
    simp only [Node.text, Node.attr?, Node.attrs, named]
    exact short
  | _ => cases kind

theorem laid_functions {parent : Piece} (hparent : Flat parent) {blocks entries : Emit}
    (hblocks : Laid false blocks) (hentries : Laid false entries) (name : String) :
    Laid false (all (raw "\n" :: Writer.line "def get_parent(context):" ::
      suite (if parent.node.isAbsent then Writer.line "return None"
        else all [start ["return "], parent.emit, raw "\n"]) ::
      blocks :: raw "\n" :: returned name entries)) := by
  have head : Writes (Framed "def " (· = ':')) (Writer.line "def get_parent(context):") :=
    writes_line ⟨by decide, by decide, ':', by decide, rfl⟩
  exact .cons .blank (.suite_all (by decide) head (laid_parent hparent)
    (.cons hblocks (.cons .blank (laid_returned name hentries))))

/-- **A program is laid out**, but for its first comments. -/
theorem laid_program {module : Node} (h : module.IsSorted) {unit : String} (short : OneLine unit) :
    ∃ e, Laid false e ∧
      program (lower module) unit = fun w => e (preamble (module.text "filename") w) := by
  cases h with
  | @intro line line' tag attrs body parent blocks shown extended defined =>
    -- a blank line stands before the function of each block
    have functions : Laid false (all ((lowerAll blocks).map fun b => all [raw "\n", b.emit])) :=
      laid_map (forall_lowerAll fun b hb => .cons .blank (laid_lower (defined b hb).1).last)
    have entries : Laid false (all ((lowerAll blocks).map blockEntry)) :=
      laid_map (forall_lowerAll fun b hb => laid_blockEntry (by
        rw [node_lower]
        exact oneLine_blockName (defined b hb).1 (defined b hb).2))
    have unitRow : Framed "def " (· = ':') ("def " ++ unit ++ "(this):") :=
      framed_between (by decide) (by decide) short (by decide) ':' (by decide) rfl
    have displayRow : Framed "def " (· = ':') "def do_display(context, blocks):" :=
      ⟨by decide, by decide, ':', by decide, rfl⟩
    exact ⟨_, .outer (by decide) (writes_line unitRow) (by decide) (writes_line displayRow)
      (.cons (.line (c := "_out = []"))
        ((laid_lower shown).cons (.last (by split <;> exact .line))))
      (laid_functions (flat_lower extended) functions entries _), rfl⟩

end Listing

end Stencil
