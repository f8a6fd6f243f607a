import Stencil.Proofs.Writing

/-!
# Whatever is done to a writer

A writer is changed by a few operations, in any order: some write, some change the depth, some do
both and are made of others. Here it is said what all sequences of operations have in common
(`Writer.Op.runAll_steady`).

* The text only grows.
* The first failure sticks, and nothing is written after it.
* The depth follows the operations and does not go below zero: an outdent that would lead there is
  refused, and that is a failure.
* Lowering a node comes back to the depth where it began, and so does a suite whose body does. That
  holds after a failure too, when nothing is written any more.
-/

namespace Stencil.Writer

inductive Op
  | write (pieces : List String)
  | line (s : String)
  | raw (s : String)
  | indent
  | outdent
  | string (s : String)
  | literal (c : Attr)
  | mark (line : Int)
  | fresh (stem : String)
  | lower (n : Node)
  | suite (body : List Op)

namespace Op

mutual

def run : Op → Emit
  | write pieces => start pieces
  | line s => Writer.line s
  | raw s => Writer.raw s
  | indent => Writer.indent
  | outdent => Writer.outdent
  | string s => Writer.string s
  | literal c => Writer.literal c
  | mark l => Writer.mark l
  | fresh stem => fun w => (w.fresh stem).2
  | lower n => Listing.emit n
  | suite body => Writer.suite (runAll body)

def runAll : List Op → Emit
  | [] => id
  | op :: ops => fun w => runAll ops (run op w)

end

mutual

/-- How far an operation leads down, less how far it leads up. -/
def levels : Op → Int
  | indent => 1
  | outdent => -1
  | suite body => levelsAll body
  | _ => 0

def levelsAll : List Op → Int
  | [] => 0
  | op :: ops => levels op + levelsAll ops

end

end Op

/-- A writer that has grown and has been led `levels` deeper, or else has refused to be led up. -/
structure Tracks (levels : Int) (w w' : Writer) : Prop extends Grows (fun _ _ => True) w w' where
  below : w.depth + levels ≤ w'.depth
  refused : w'.depth ≠ w.depth + levels → w'.failure ≠ none

variable {w w' w'' : Writer} {d e : Int}

theorem Grows.failed {Q : String → Failure → Prop} (h : Grows Q w w') {f : Failure}
    (failed : w.failure = some f) : w'.failure = some f ∧ w'.text = w.text := by
  have still : w.failure ≠ none := failed ▸ Option.some_ne_none f
  obtain ⟨added, same, quiet⟩ := h.text
  rw [quiet still, String.append_empty] at same
  exact ⟨h.failure.elim (·.trans failed) fun new => absurd new.1 still, same⟩

namespace Tracks

theorem of_moves (h : Moves (fun _ _ => True) 0 0 w w') : Tracks 0 w w' := by
  have same : w'.depth = w.depth := h.depth
  exact ⟨h.toGrows, by omega, by omega⟩

theorem trans (h : Tracks d w w') (h' : Tracks e w' w'') : Tracks (d + e) w w'' where
  toGrows := h.toGrows.trans h'.toGrows
  below := by
    have := h.below
    have := h'.below
    omega
  refused other := by
    by_cases second : w''.depth = w'.depth + e
    · have first : w'.depth ≠ w.depth + d := by omega
      obtain ⟨f, failed⟩ := Option.ne_none_iff_exists'.1 (h.refused first)
      rw [(h'.toGrows.failed failed).1]
      exact Option.some_ne_none f
    · exact h'.refused second

theorem indent (w : Writer) : Tracks 1 w (Writer.indent w) :=
  ⟨.of_same rfl rfl rfl, Int.le_refl _, absurd rfl⟩

theorem outdent (w : Writer) : Tracks (-1) w (Writer.outdent w) := by
  unfold Writer.outdent
  split
  · next bottom =>
    refine ⟨grows_fail trivial, ?_, fun _ => ?_⟩
    · unfold fail
      split <;> omega
    · unfold fail
      split
      · next failed => rw [failed]; exact Option.some_ne_none _
      · exact Option.some_ne_none _
  · exact ⟨.of_same rfl rfl rfl, by dsimp only; omega, by dsimp only; omega⟩

theorem suite {body : Emit} (h : ∀ w, Tracks d w (body w)) (w : Writer) :
    Tracks d w (Writer.suite body w) := by
  have inside : Tracks (1 + d) w (body (Writer.indent w)) := (indent w).trans (h _)
  have filled : Tracks (1 + d) w (if (body (Writer.indent w)).statements = w.statements then
      Writer.line "pass" (body (Writer.indent w)) else body (Writer.indent w)) := by
    split
    · simpa using inside.trans (of_moves (emits_line "pass" _))
    · exact inside
  have closed := filled.trans (outdent _)
  rwa [Int.add_right_comm, Int.add_right_neg, Int.zero_add] at closed

end Tracks

/-- A suite comes back to the depth where it began if its body does. -/
theorem depth_suite {body : Emit} (balanced : (body w.indent).depth = w.indent.depth) :
    (suite body w).depth = w.depth := by
  have deep : (body w.indent).depth = w.depth + 1 := balanced
  have padded : (if (body w.indent).statements = w.statements then
      Writer.line "pass" (body w.indent) else body w.indent).depth = w.depth + 1 := by
    split
    · exact (emits_line (Q := fun _ _ => True) "pass" _).depth.trans deep
    · exact deep
  have closed : ∀ v : Writer, v.depth = w.depth + 1 → (outdent v).depth = w.depth := by
    intro v hv
    have up := (moves_outdent (Q := fun _ _ => True) (k := 0) (w := v) (by omega)).depth
    omega
  exact closed _ padded

/-- Whatever node is lowered, and whatever goes wrong with it. -/
theorem moves_lower (n : Node) (w : Writer) : Moves (fun _ _ => True) 0 0 w (Listing.emit n w) :=
  (Listing.clean_lower n fun _ _ _ => trivial).emit w

namespace Op

-- one step, then a run: a suite is a step that runs its body
mutual

theorem tracks_run (op : Op) (w : Writer) : Tracks op.levels w (op.run w) := by
  cases op with
  | indent => exact .indent w
  | outdent => exact .outdent w
  | fresh stem => exact .of_moves ((Moves.refl w).locals _)
  | lower n => exact .of_moves (moves_lower n w)
  | suite body => exact .suite (tracks_runAll body) w
  | write pieces => exact .of_moves (emits_start pieces w)
  | line s => exact .of_moves (emits_line s w)
  | raw s | string s => exact .of_moves (emits_raw _ w)
  | literal c => exact .of_moves (emits_literal (fun _ _ _ _ => trivial) w)
  | mark l => exact .of_moves (emits_mark l w)

theorem tracks_runAll (ops : List Op) (w : Writer) : Tracks (levelsAll ops) w (runAll ops w) := by
  cases ops with
  | nil => exact .of_moves (.refl w)
  | cons op ops => exact (tracks_run op w).trans (tracks_runAll ops _)

end

/-- **A writer is steady under any sequence of operations.**  Its text only grows, and once it has
failed neither its failure nor its text changes. It is as deep as the operations lead it, or deeper,
which is a failure. After a node has been lowered, and after a suite whose body is balanced, it is as
deep as before, with or without a failure. -/
theorem runAll_steady (ops : List Op) (w : Writer) :
    (∃ added, (runAll ops w).text = w.text ++ added) ∧
    (∀ f, w.failure = some f → (runAll ops w).failure = some f ∧ (runAll ops w).text = w.text) ∧
    (w.depth + levelsAll ops ≤ (runAll ops w).depth ∧
      ((runAll ops w).depth ≠ w.depth + levelsAll ops → (runAll ops w).failure ≠ none)) ∧
    (∀ n, (run (lower n) w).depth = w.depth) ∧
    ∀ body, (runAll body w.indent).depth = w.indent.depth → (run (suite body) w).depth = w.depth := by
  have tracks := tracks_runAll ops w
  refine ⟨?_, fun f => tracks.toGrows.failed, ⟨tracks.below, tracks.refused⟩, fun n => ?_,
    fun body => depth_suite⟩
  · obtain ⟨added, grown, -⟩ := tracks.text
    exact ⟨added, grown⟩
  · exact (moves_lower n w).depth

end Op
end Stencil.Writer
