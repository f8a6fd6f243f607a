import Stencil.Proofs.Rows

/-!
# What is printed, line by line

The program of a template is put together from few things: rows, line marks, blank lines, and suites
and tables that stand one level deeper than the row that opens them. Its lines are blank ones, marks of
template lines, and rows with statements; `Printed` says which lines come between a writer before and
after, and `Prints` that a change prints lines unless it fails. The rows are blocks of statements
(`Level`).

A change that prints such blocks is laid out (`Laid`). There is one rule for each of the things a
program is put together from.
-/

namespace Stencil

open Writer
open List hiding all all_cons

/-! ## Lines -/

/-- A line with a statement, which begins with neither a blank nor a comment. -/
structure Row where
  depth : Nat
  content : String
  oneLine : OneLine content
  begins : (content.toList.head?.any fun c => !Text.isBlank c && c != '#') = true

/-- A line of a program. -/
inductive Item
  | blank
  | mark (depth : Nat) (line : Int)
  | row (row : Row)

namespace Item

def line : Item → String
  | blank => ""
  | mark depth line => indentation depth ++ ("# line " ++ toString line)
  | row r => indentation r.depth ++ r.content

def text (items : List Item) : String := String.join (items.map fun item => item.line ++ "\n")

def row? : Item → Option Row
  | row r => some r
  | _ => none

def rows (items : List Item) : List Row := items.filterMap row?

theorem text_append (xs ys : List Item) : text (xs ++ ys) = text xs ++ text ys := by
  simp [text, String.join_append]

theorem text_singleton (item : Item) : text [item] = item.line ++ "\n" := by
  simp [text, String.join]

theorem rows_append (xs ys : List Item) : rows (xs ++ ys) = rows xs ++ rows ys :=
  filterMap_append

def marks (line : Int) (w : Writer) : List Item :=
  if line = w.lastLine then [] else [mark w.depth line]

theorem rows_marks (line : Int) (w : Writer) : rows (marks line w) = [] := by
  unfold marks
  split
  · rfl
  · rfl

end Item

/-- Some lines are all that comes between a writer before and after. -/
structure Printed (items : List Item) (w v : Writer) : Prop where
  failure : v.failure = none
  depth : v.depth = w.depth
  text : v.text = w.text ++ Item.text items
  statements : v.statements = w.statements + (Item.rows items).length

namespace Printed

variable {xs ys : List Item} {u v w : Writer}

theorem nil (h : w.failure = none) : Printed [] w w :=
  ⟨h, rfl, by rw [show Item.text [] = "" from rfl, String.append_empty], rfl⟩

theorem trans (first : Printed xs u v) (second : Printed ys v w) : Printed (xs ++ ys) u w where
  failure := second.failure
  depth := second.depth.trans first.depth
  text := by rw [second.text, first.text, Item.text_append, String.append_assoc]
  statements := by
    rw [second.statements, first.statements, Item.rows_append, length_append, Nat.add_assoc]

theorem nested (h : Printed xs (indent w) v) : Printed xs w (outdent v) := by
  have deeper : v.depth = w.depth + 1 := h.depth
  have up : outdent v = { v with depth := w.depth } := by
    unfold outdent
    rw [if_neg (by omega), deeper, Nat.add_sub_cancel]
  rw [up]
  exact ⟨h.failure, rfl, h.text, h.statements⟩

theorem row {c : String} (h : w.failure = none) (oneLine : OneLine c)
    (begins : (c.toList.head?.any fun c => !Text.isBlank c && c != '#') = true) :
    Printed [.row ⟨w.depth, c, oneLine, begins⟩] w (w.row c) := by
  refine ⟨h, rfl, ?_, rfl⟩
  simp only [Item.text_singleton, Item.line, Writer.row, String.append_assoc]

theorem mark (line : Int) (h : w.failure = none) : Printed (Item.marks line w) w (mark line w) := by
  unfold Item.marks
  split
  · next same =>
    simp only [Writer.mark, h, if_pos same]
    exact nil h
  · next other =>
    simp only [Writer.mark, h, if_neg other]
    refine ⟨rfl, rfl, ?_, rfl⟩
    simp only [Item.text_singleton, Item.line, String.append_assoc]
    rfl

end Printed

/-! ## Blocks -/

namespace Row

def ends (r : Row) (x : Char) : Prop := r.content.toList.getLast? = some x

def isQuiet (r : Row) : Prop := ¬r.ends ':' ∧ ¬r.ends '{'

def isElse (r : Row) : Prop :=
  "else".toList <+: r.content.toList ∨ "elif".toList <+: r.content.toList

def isTest (r : Row) : Prop :=
  "if ".toList <+: r.content.toList ∨ "elif ".toList <+: r.content.toList

def closes (r : Row) : Prop := "\x7d".toList <+: r.content.toList

end Row

/-- The rows of statements at a depth. The flag says whether they come right after the suite of a
test, so that they may go on with it. -/
inductive Level : Nat → Bool → List Row → Prop
  | nil (d : Nat) (b : Bool) : Level d b []
  | row {d b r rest} (depth : r.depth = d) (quiet : r.isQuiet) (plain : ¬r.isElse)
    (after : Level d false rest) : Level d b (r :: rest)
  | suite {d b test r body rest} (depth : r.depth = d) (colon : r.ends ':')
    (continues : r.isElse → b = true) (filled : body ≠ []) (inner : Level (d + 1) false body)
    (tests : test = true → r.isTest) (after : Level d test rest) : Level d b (r :: (body ++ rest))
  | table {d b r close body rest} (depth : r.depth = d) (brace : r.ends '{') (plain : ¬r.isElse)
    (inner : Level (d + 1) false body) (depth' : close.depth = d) (closes : close.closes)
    (quiet : close.isQuiet) (plain' : ¬close.isElse) (after : Level d false rest) :
    Level d b (r :: (body ++ close :: rest))

namespace Level

variable {d : Nat} {b : Bool} {xs ys : List Row}

theorem weaken (h : Level d false xs) (b : Bool) : Level d b xs := by
  cases h with
  | nil => exact .nil d b
  | row depth quiet plain after => exact .row depth quiet plain after
  | suite depth colon continues filled inner tests after =>
    exact .suite depth colon (fun is => absurd (continues is) Bool.false_ne_true) filled inner tests after
  | table depth brace plain inner depth' closes quiet plain' after =>
    exact .table depth brace plain inner depth' closes quiet plain' after

theorem append (first : Level d b xs) (second : Level d false ys) : Level d b (xs ++ ys) := by
  induction first with
  | nil d b => exact second.weaken b
  | row depth quiet plain _ ih => exact .row depth quiet plain (ih second)
  | suite depth colon continues filled inner tests _ _ ih =>
    rw [cons_append, append_assoc]
    exact .suite depth colon continues filled inner tests (ih second)
  | table depth brace plain inner depth' closes quiet plain' _ _ ih =>
    rw [cons_append, append_assoc, cons_append]
    exact .table depth brace plain inner depth' closes quiet plain' (ih second)

end Level

/-! ## Changes that print -/

variable {x : Char} {c : String} {ending : Char → Prop} {r : Row}

/-- A change that does not undo a failure. -/
def Idle (e : Emit) : Prop := ∀ w : Writer, w.failure.isSome = true → (e w).failure.isSome = true

/-- A change that prints lines unless it fails; `B` holds of their rows at a depth. -/
structure Prints (B : Nat → List Row → Prop) (e : Emit) : Prop where
  idle : Idle e
  printed : ∀ w : Writer, w.failure = none →
    (e w).failure.isSome = true ∨ ∃ xs, Printed xs w (e w) ∧ B w.depth (Item.rows xs)

variable {e : Emit} {xs : List Item} {v w : Writer} {stem word : String} {B : Nat → List Row → Prop}

theorem Sticky.idle (h : Sticky e) : Idle e := by
  intro w failed
  rw [h w failed]
  exact failed

theorem Idle.seq {f : Emit} (he : Idle e) (hf : Idle f) : Idle fun w => f (e w) :=
  fun w failed => hf _ (he w failed)

theorem idle_indent : Idle indent := fun _ failed => failed

theorem idle_outdent : Idle outdent := by
  intro w failed
  unfold outdent
  split
  · exact (sticky_fail fun _ => _).idle w failed
  · exact failed

namespace Prints

variable {B B₁ B₂ : Nat → List Row → Prop} {e f : Emit}

theorem mono (h : Prints B e) (weaker : ∀ d xs, B d xs → B₁ d xs) : Prints B₁ e where
  idle := h.idle
  printed w none := (h.printed w none).imp id fun ⟨xs, printed, block⟩ =>
    ⟨xs, printed, weaker _ _ block⟩

theorem seq (first : Prints B₁ e) (second : Prints B₂ f)
    (joined : ∀ d xs ys, B₁ d xs → B₂ d ys → B d (xs ++ ys)) : Prints B fun w => f (e w) where
  idle := first.idle.seq second.idle
  printed w none := by
    rcases first.printed w none with failed | ⟨xs, printed, block⟩
    · exact .inl (second.idle _ failed)
    · refine (second.printed _ printed.failure).imp id ?_
      rintro ⟨ys, printed', block'⟩
      rw [printed.depth] at block'
      refine ⟨xs ++ ys, printed.trans printed', ?_⟩
      rw [Item.rows_append]
      exact joined _ _ _ block block'

theorem nested (h : Prints B e) :
    Prints (fun d xs => B (d + 1) xs) fun w => outdent (e (indent w)) where
  idle := (idle_indent.seq h.idle).seq idle_outdent
  printed w none := (h.printed (indent w) none).imp (idle_outdent _)
    fun ⟨xs, printed, block⟩ => ⟨xs, printed.nested, block⟩

end Prints

/-! ## Suites -/

def Row.pass (depth : Nat) : Row := ⟨depth, "pass", by decide, by decide⟩

/-- A suite in which nothing was written gets a statement. -/
def padded (before : Nat) : Emit := fun w =>
  if w.statements = before then line "pass" w else w

theorem idle_padded (before : Nat) : Idle (padded before) := by
  intro w failed
  unfold padded
  split
  · exact (sticky_start _).idle w failed
  · exact failed

theorem padded_of_rows (h : Printed xs w v) (some : Item.rows xs ≠ []) :
    padded w.statements v = v := by
  have more : (Item.rows xs).length ≠ 0 := fun none => some (length_eq_zero_iff.1 none)
  rw [padded, if_neg (by rw [h.statements]; omega)]

theorem padded_of_none (h : Printed xs w v) (none : Item.rows xs = []) :
    Printed (xs ++ [.row (.pass w.depth)]) w (padded w.statements v) := by
  have same : v.statements = w.statements := by rw [h.statements, none]; rfl
  rw [padded, if_pos same, line_of_none h.failure, ← h.depth]
  exact h.trans (.row h.failure (by decide) (by decide))

theorem level_pass (d : Nat) : Level d false [.pass d] := by
  have quiet : ¬"pass".toList.getLast? = some ':' ∧ ¬"pass".toList.getLast? = some '{' := by decide
  have plain : ¬("else".toList <+: "pass".toList ∨ "elif".toList <+: "pass".toList) := by decide
  exact .row rfl quiet plain (.nil _ _)

/-- **There is at least one row** in a suite. -/
theorem Prints.padded (h : Prints (fun d => Level d false) e) :
    Prints (fun d xs => xs ≠ [] ∧ Level d false xs) fun w => padded w.statements (e w) where
  idle w failed := h.idle.seq (idle_padded w.statements) w failed
  printed w none := by
    refine (h.printed w none).imp (idle_padded _ _) ?_
    rintro ⟨xs, printed, block⟩
    by_cases empty : Item.rows xs = []
    · refine ⟨_, padded_of_none printed empty, ?_⟩
      rw [Item.rows_append, empty]
      exact ⟨cons_ne_nil _ _, level_pass _⟩
    · rw [padded_of_rows printed empty]
      exact ⟨xs, printed, empty, block⟩

theorem Prints.suite (h : Prints (fun d => Level d false) e) :
    Prints (fun d xs => xs ≠ [] ∧ Level (d + 1) false xs) (suite e) :=
  h.padded.nested

theorem shut_fresh (short : OneLine stem) (w : Writer) : Shut (w.fresh stem).1 := by
  have number : Closed (toString (w.locals + 1)) := closed_int (w.locals + 1 : Nat)
  have stem : OneLine ("_" ++ stem) := oneLine_append (by decide) short
  exact (Shut.append stem (by decide : Shut "_")).append_closed number

/-! ## Rows of a sort -/

/-- A word that begins rows which are no comments and go on with nothing. -/
def isOrdinary (word : String) : Bool :=
  word.toList.head?.any fun c => !Text.isBlank c && c != '#' && c != 'e'

/-- A word that begins rows after whose suites others can be tried. -/
def isTest (word : String) : Bool := word == "if " || word == "elif "

/-- A word that begins rows which go on after the suite of a test. -/
def isElse (word : String) : Bool := word == "elif " || word == "else"

theorem isElse_of_isOrdinary {word : String} (h : isOrdinary word = true) : isElse word = false := by
  rw [← Bool.not_eq_true, isElse, Bool.or_eq_true, beq_iff_eq, beq_iff_eq]
  rintro (rfl | rfl)
  · exact absurd h (by decide)
  · exact absurd h (by decide)

theorem head?_of_leading {xs ys : List Char} (h : xs <+: ys) (head : xs.head? = some x) :
    ys.head? = some x := by
  obtain ⟨rest, rfl⟩ := h
  cases xs with
  | nil => cases head
  | cons => exact head

theorem Framed.head? (h : Framed word ending c) (begins : (isOrdinary word || isElse word) = true) :
    ∃ x, c.toList.head? = some x ∧ (!Text.isBlank x && x != '#') = true ∧
      (isOrdinary word = true → x ≠ 'e') := by
  rw [Bool.or_eq_true] at begins
  rcases begins with ordinary | other
  · have first := ordinary
    unfold isOrdinary at first
    cases letter : word.toList.head? with
    | none =>
      rw [letter] at first
      cases first
    | some x =>
      rw [letter, Option.any_some, Bool.and_eq_true, bne_iff_ne] at first
      exact ⟨x, head?_of_leading h.starts letter, first.1, fun _ => first.2⟩
  · rw [isElse, Bool.or_eq_true, beq_iff_eq, beq_iff_eq] at other
    refine ⟨'e', head?_of_leading h.starts ?_, by decide, fun ordinary => ?_⟩
    · rcases other with rfl | rfl
      · decide
      · decide
    · rcases other with rfl | rfl
      · exact absurd ordinary (by decide)
      · exact absurd ordinary (by decide)

theorem Framed.begins (h : Framed word ending c)
    (begins : (isOrdinary word || isElse word) = true) :
    OneLine c ∧ (c.toList.head?.any fun c => !Text.isBlank c && c != '#') = true := by
  obtain ⟨x, head, good, -⟩ := h.head? begins
  rw [head]
  exact ⟨h.oneLine, good⟩

theorem Framed.plain (h : Framed word ending r.content) (ordinary : isOrdinary word = true) :
    ¬r.isElse := by
  obtain ⟨x, head, -, other⟩ := h.head? (by rw [ordinary]; rfl)
  rintro (starts | starts)
  · exact other ordinary (Option.some.inj (head.symm.trans (head?_of_leading starts (by decide))))
  · exact other ordinary (Option.some.inj (head.symm.trans (head?_of_leading starts (by decide))))

theorem Framed.quiet (h : Framed word Quiet r.content) : r.isQuiet := by
  obtain ⟨x, last, colon, brace⟩ := h.ends
  refine ⟨fun is => colon ?_, fun is => brace ?_⟩
  · exact Option.some.inj (last.symm.trans is)
  · exact Option.some.inj (last.symm.trans is)

theorem Framed.last (h : Framed word (· = x) r.content) : r.ends x := by
  obtain ⟨y, last, rfl⟩ := h.ends
  exact last

theorem Framed.test (h : Framed word ending r.content) (test : isTest word = true) : r.isTest := by
  rw [Stencil.isTest, Bool.or_eq_true, beq_iff_eq, beq_iff_eq] at test
  rcases test with rfl | rfl
  · exact .inl h.starts
  · exact .inr h.starts

section

variable {word : String} {e f b : Emit}

theorem prints_row (begins : (isOrdinary word || isElse word) = true)
    (written : Writes (Framed word ending) e) :
    Prints (fun d xs => ∃ r : Row, xs = [r] ∧ r.depth = d ∧ Framed word ending r.content) e where
  idle := written.sticky.idle
  printed w none := by
    refine (written.written w none).imp id ?_
    rintro ⟨c, framed, row⟩
    obtain ⟨oneLine, first⟩ := framed.begins begins
    rw [row]
    exact ⟨_, .row none oneLine first, _, rfl, rfl, framed⟩

theorem prints_suite (begins : (isOrdinary word || isElse word) = true)
    (head : Writes (Framed word (· = ':')) e) (body : Prints (fun d => Level d false) b)
    (rest : Prints (fun d => Level d (isTest word)) f) :
    Prints (fun d xs => xs ≠ [] ∧ Level d (isElse word) xs) fun w => f (suite b (e w)) := by
  have later : Prints (fun d xs => ∃ body rest, xs = body ++ rest ∧ body ≠ [] ∧
      Level (d + 1) false body ∧ Level d (isTest word) rest) fun w => f (suite b w) :=
    body.suite.seq rest fun d xs ys hxs hys => ⟨xs, ys, rfl, hxs.1, hxs.2, hys⟩
  refine (prints_row begins head).seq later ?_
  rintro d _ _ ⟨r, rfl, depth, framed⟩ ⟨body, rest, rfl, filled, inner, after⟩
  rw [singleton_append]
  refine ⟨cons_ne_nil _ _, .suite depth framed.last (fun goes => ?_) filled inner framed.test after⟩
  rw [Bool.or_eq_true] at begins
  exact begins.resolve_left fun ordinary => framed.plain ordinary goes

theorem prints_outer {test : Bool} (ordinary : isOrdinary word = true)
    (head : Writes (Framed word (· = ':')) e)
    (body : Prints (fun d xs => xs ≠ [] ∧ Level d test xs) b) (first : test = false) :
    Prints (fun d => Level d false) fun w => outdent (b (indent (e w))) := by
  refine (prints_row (by rw [ordinary]; rfl) head).seq body.nested ?_
  rintro d _ xs ⟨r, rfl, depth, framed⟩ ⟨filled, inner⟩
  rw [first] at inner
  rw [singleton_append, ← append_nil xs]
  exact .suite depth framed.last (fun goes => absurd goes (framed.plain ordinary)) filled inner
    (fun wrong => absurd wrong Bool.false_ne_true) (.nil d false)

theorem prints_table (ordinary : isOrdinary word = true)
    (head : Writes (Framed word (· = '{')) e) (body : Prints (fun d => Level d false) b)
    (close : Writes (Framed "\x7d" Quiet) f) :
    Prints (fun d => Level d false) fun w => f (outdent (b (indent (e w)))) := by
  have later : Prints (fun d xs => ∃ body close, xs = body ++ [close] ∧
      Level (d + 1) false body ∧ close.depth = d ∧ Framed "\x7d" Quiet close.content)
      fun w => f (outdent (b (indent w))) := by
    refine body.nested.seq (prints_row (by decide) close) ?_
    rintro d xs _ inner ⟨r, rfl, depth, framed⟩
    exact ⟨xs, r, rfl, inner, depth, framed⟩
  refine (prints_row (by rw [ordinary]; rfl) head).seq later ?_
  rintro d _ _ ⟨r, rfl, depth, framed⟩ ⟨body, close, rfl, inner, depth', framed'⟩
  exact .table depth framed.last (framed.plain ordinary) inner depth' framed'.starts framed'.quiet
    (framed'.plain (by decide)) (.nil _ _)

end

/-! ## Layout -/

/-- A change that prints statements, unless it fails. The flag says whether it goes on right after the
suite of a test. -/
abbrev Laid (b : Bool) : Emit → Prop := Prints fun d => Level d b

namespace Laid

variable {e f b : Emit} {es fs : List Emit} {word : String}

theorem skip : Laid false id where
  idle _ failed := failed
  printed _ none := .inr ⟨[], .nil none, .nil _ _⟩

theorem blank : Laid false (raw "\n") where
  idle := (sticky_raw _).idle
  printed w none := by
    refine .inr ⟨[.blank], ?_, .nil _ _⟩
    rw [raw_of_none none]
    exact ⟨none, rfl, rfl, rfl⟩

theorem mark (line : Int) : Laid false (mark line) where
  idle w failed := by
    obtain ⟨f, hf⟩ := Option.isSome_iff_exists.1 failed
    simp only [Writer.mark, hf, Option.isSome_some]
  printed w none := by
    refine .inr ⟨_, .mark line none, ?_⟩
    rw [Item.rows_marks]
    exact .nil _ _

theorem done (h : Laid false e) : Laid true e := h.mono fun _ _ h => h.weaken true

theorem seq (first : Laid false e) (second : Laid false f) : Laid false fun w => f (e w) :=
  Prints.seq first second fun _ _ _ => Level.append

theorem row (ordinary : isOrdinary word = true) (written : Writes (Framed word Quiet) e) :
    Laid false e := by
  refine (prints_row (by rw [ordinary]; rfl) written).mono ?_
  rintro d _ ⟨r, rfl, depth, framed⟩
  exact .row depth framed.quiet (framed.plain ordinary) (.nil _ _)

theorem suite (word : String) (begins : (isOrdinary word || isElse word) = true)
    (head : Writes (Framed word (· = ':')) e) (body : Laid false b) (rest : Laid (isTest word) f) :
    Laid (isElse word) fun w => f (suite b (e w)) :=
  (prints_suite begins head body rest).mono fun _ _ h => h.2

theorem outer {word' : String} {d : Emit} (ordinary : isOrdinary word = true)
    (head : Writes (Framed word (· = ':')) e) (inner : isOrdinary word' = true)
    (first : Writes (Framed word' (· = ':')) d) (body : Laid false b) (rest : Laid false f) :
    Laid false fun w => outdent (f (Writer.suite b (d (indent (e w))))) :=
  prints_outer ordinary head (prints_suite (by rw [inner]; rfl) first body
    (rest.mono fun _ _ h => h.weaken _)) (isElse_of_isOrdinary inner)

theorem named {stem : String} (short : OneLine stem) {f : String → Emit}
    (h : ∀ k, Shut k → Laid false (f k)) : Laid false fun w => f (w.fresh stem).1 (w.fresh stem).2 where
  idle w failed := (h _ (shut_fresh short w)).idle _ failed
  printed w none := ((h _ (shut_fresh short w)).printed (w.fresh stem).2 none).imp id
    fun ⟨xs, printed, block⟩ =>
      ⟨xs, ⟨printed.failure, printed.depth, printed.text, printed.statements⟩, block⟩

theorem piece {n : Node} {write : Listing.Care → Emit} {ps : List Listing.Piece}
    (h : Laid false (write .strict)) : Laid false (Listing.Piece.piece n write ps).emit where
  idle w failed := by
    obtain ⟨f, hf⟩ := Option.isSome_iff_exists.1 failed
    simp only [Listing.Piece.emit, Listing.Piece.emitWith, hf, Option.isSome_some]
  printed w none := by
    have outcome := h.printed w none
    simp only [Listing.Piece.emit, Listing.Piece.emitWith, none]
    exact outcome

theorem all_append (es fs : List Emit) : all (es ++ fs) = fun w => all fs (all es w) := by
  funext w
  simp only [all, List.foldl_append]

theorem cons (first : Laid false e) (rest : Laid false (all es)) : Laid false (all (e :: es)) := by
  show Laid false fun w => all es (e w)
  exact seq first rest

theorem last (h : Laid false e) : Laid false (all [e]) := h

theorem append (first : Laid false (all es)) (rest : Laid false (all fs)) :
    Laid false (all (es ++ fs)) := by
  rw [all_append]
  exact seq first rest

theorem ite {c : Bool} (hyes : Laid false e) (hno : Laid false f) :
    Laid false (if c then e else f) := by
  cases c with
  | true => exact hyes
  | false => exact hno

theorem line {c : String} (ordinary : isOrdinary c = true := by decide) (shut : Shut c := by decide) :
    Laid false (Writer.line c) :=
  row ordinary (writes_line (framed_of_shut shut))

theorem table_all (ordinary : isOrdinary word = true) (head : Writes (Framed word (· = '{')) e)
    (body : Laid false (all es)) (close : Writes (Framed "\x7d" Quiet) f) :
    Laid false (all (e :: indent :: (es ++ [outdent, f]))) := by
  have split : all (e :: indent :: (es ++ [outdent, f])) =
      fun w => f (outdent (all es (indent (e w)))) := by
    funext w
    rw [all_cons, all_cons, all_append]
    rfl
  rw [split]
  exact prints_table ordinary head body close

theorem suite_all (ordinary : isOrdinary word = true) (head : Writes (Framed word (· = ':')) e)
    (body : Laid false b) (rest : Laid (isTest word) (all fs)) :
    Laid false (all (e :: Writer.suite b :: fs)) := by
  rw [← isElse_of_isOrdinary ordinary]
  exact suite word (by rw [ordinary]; rfl) head body rest

end Laid

end Stencil
