import Stencil.Proofs.ForLoop
import Stencil.Proofs.FrontEnd
import Stencil.Proofs.Placement
import Stencil.Proofs.Suites

/-!
# The layout of a listing

The text of a program is indented by four spaces a level. Blank lines and comments aside, a line that
ends in a colon opens a suite one level deeper, a line that ends in a brace opens a table, and no other
line has a deeper one after it; and where a line goes on with a test, the nearest line before it that is
not deeper is that test, on the same level (`Listing.Layout`).

This is said of the text alone. `Listing.statements` finds the lines in it, and `leading`, `content` and
`level` take a line apart. The proof goes through the rows the text was printed from: `Level` has the
same properties by induction on how the rows are nested, and the rows are found again in the text.
-/

namespace Stencil

open List Writer
namespace Listing

/-! ## Lines of a text -/

def lines (text : String) : List (List Char) := text.toList.splitOn '\n'

def leading (line : List Char) : List Char := line.takeWhile Text.isBlank

/-- A line without the blanks it begins with. -/
def content (line : List Char) : List Char := line.dropWhile Text.isBlank

def level (line : List Char) : Nat := (leading line).length / 4

def isStatement (line : List Char) : Bool := (content line).head?.any (· != '#')

def statements (text : String) : List (List Char) := (lines text).filter isStatement

def endsIn (line : List Char) (c : Char) : Prop := line.getLast? = some c

def isContinued (line : List Char) : Prop :=
  "else".toList <+: content line ∨ "elif".toList <+: content line

def isTesting (line : List Char) : Prop :=
  ("if ".toList <+: content line ∨ "elif ".toList <+: content line) ∧ endsIn line ':'

def isClosing (line : List Char) : Prop := "\x7d".toList <+: content line

/-- What may follow after a line: deeper lines after one that opens something, and only there. -/
structure Fits (line : List Char) (next : Option (List Char)) : Prop where
  colon : endsIn line ':' → ∃ n, next = some n ∧ level n = level line + 1
  brace : endsIn line '{' → ∃ n, next = some n ∧
    (level n = level line + 1 ∨ isClosing n ∧ level n = level line)
  other : ¬endsIn line ':' → ¬endsIn line '{' → ∀ n, next = some n → level n ≤ level line

/-- The layout of the lines of a program. -/
structure Layout (ls : List (List Char)) : Prop where
  indented : ∀ line ∈ ls, leading line = List.replicate (4 * level line) ' '
  fits : ∀ before line after, ls = before ++ line :: after → Fits line after.head?
  /-- All lines between a test and the line that goes on with it are in the suite of the test. -/
  continued : ∀ before line after, ls = before ++ line :: after → isContinued line →
    ∃ earlier test suite, before = earlier ++ test :: suite ∧ isTesting test ∧
      level test = level line ∧ ∀ s ∈ suite, level line < level s

end Listing

/-! ## Rows in a text -/

namespace Item

theorem oneLine_line (item : Item) : OneLine item.line := by
  have indented (depth : Nat) : OneLine (indentation depth) := by
    rw [OneLine, indentation, String.toList_ofList, mem_replicate]
    exact fun h => absurd h.2 (by decide)
  cases item with
  | blank => decide
  | mark depth line =>
    exact oneLine_append (indented depth) (oneLine_append (by decide) (closed_int line).oneLine)
  | row r => exact oneLine_append (indented r.depth) r.oneLine

def chars (item : Item) : List Char := item.line.toList

end Item

namespace Listing

theorem lines_cons {c : String} (oneLine : OneLine c) (rest : String) :
    lines (c ++ "\n" ++ rest) = c.toList :: lines rest := by
  rw [lines, String.toList_append, String.toList_append, append_assoc]
  exact splitOn_append_cons_self_of_not_mem oneLine rest.toList

theorem lines_text (items : List Item) (rest : String) :
    lines (Item.text items ++ rest) = items.map Item.chars ++ lines rest := by
  induction items with
  | nil => rw [show Item.text [] = "" from rfl, String.empty_append]; rfl
  | cons item items ih =>
    rw [← singleton_append, Item.text_append, Item.text_singleton, String.append_assoc,
      lines_cons item.oneLine_line, ih]
    rfl

theorem content_indented (depth : Nat) {c : String} {x : Char} (head : c.toList.head? = some x)
    (shown : Text.isBlank x = false) :
    leading (indentation depth ++ c).toList = List.replicate (4 * depth) ' ' ∧
      content (indentation depth ++ c).toList = c.toList := by
  have blank : ∀ y ∈ List.replicate (4 * depth) ' ', Text.isBlank y = true := by
    intro y hy
    rw [(mem_replicate.1 hy).2]
    decide
  obtain ⟨xs, split⟩ : ∃ xs, c.toList = x :: xs := head?_eq_some_iff.1 head
  rw [leading, content, String.toList_append, indentation, String.toList_ofList,
    takeWhile_append_of_pos blank,
    dropWhile_append_of_pos blank, split, takeWhile_cons_of_neg (by rw [shown]; decide),
    dropWhile_cons_of_neg (by rw [shown]; decide), append_nil]
  exact ⟨rfl, rfl⟩

end Listing

namespace Row

def line (r : Row) : List Char := (Item.row r).chars

theorem head? (r : Row) : ∃ x, r.content.toList.head? = some x ∧ Text.isBlank x = false ∧ x ≠ '#' := by
  have begins := r.begins
  cases head : r.content.toList.head? with
  | none =>
    rw [head] at begins
    cases begins
  | some x =>
    rw [head, Option.any_some, Bool.and_eq_true, Bool.not_eq_true', bne_iff_ne] at begins
    exact ⟨x, rfl, begins⟩

theorem leading_line (r : Row) : Listing.leading r.line = List.replicate (4 * r.depth) ' ' := by
  obtain ⟨x, head, shown, -⟩ := r.head?
  exact (Listing.content_indented r.depth head shown).1

theorem content_line (r : Row) : Listing.content r.line = r.content.toList := by
  obtain ⟨x, head, shown, -⟩ := r.head?
  exact (Listing.content_indented r.depth head shown).2

@[simp] theorem level_line (r : Row) : Listing.level r.line = r.depth := by
  rw [Listing.level, leading_line, length_replicate, Nat.mul_div_cancel_left _ (by decide)]

theorem isStatement_line (r : Row) : Listing.isStatement r.line = true := by
  obtain ⟨x, head, -, other⟩ := r.head?
  rw [Listing.isStatement, content_line, head, Option.any_some, bne_iff_ne]
  exact other

theorem endsIn_line (r : Row) (x : Char) : Listing.endsIn r.line x ↔ r.ends x := by
  have some : r.content.toList ≠ [] := by
    obtain ⟨y, head, -⟩ := r.head?
    intro none
    rw [none] at head
    cases head
  rw [Listing.endsIn, ends, line, Item.chars, Item.line, getLast?_append_of_some some]

theorem fits_of_quiet {r : Row} (quiet : r.isQuiet) {next : Option Row}
    (h : ∀ n, next = some n → n.depth ≤ r.depth) : Listing.Fits r.line (next.map line) where
  colon ends := absurd ((r.endsIn_line _).1 ends) quiet.1
  brace ends := absurd ((r.endsIn_line _).1 ends) quiet.2
  other _ _ n found := by
    obtain ⟨m, is, rfl⟩ := Option.map_eq_some_iff.1 found
    rw [level_line, level_line]
    exact h m is

theorem fits_of_colon {r n : Row} (colon : r.ends ':') (deeper : n.depth = r.depth + 1) :
    Listing.Fits r.line (some n.line) where
  colon _ := ⟨_, rfl, by rw [level_line, level_line, deeper]⟩
  brace ends := absurd (colon.symm.trans ((r.endsIn_line _).1 ends)) (by decide)
  other not := absurd ((r.endsIn_line _).2 colon) not

theorem fits_of_brace {r n : Row} (brace : r.ends '{')
    (h : n.depth = r.depth + 1 ∨ n.closes ∧ n.depth = r.depth) : Listing.Fits r.line (some n.line) where
  colon ends := absurd (brace.symm.trans ((r.endsIn_line _).1 ends)) (by decide)
  brace _ := by
    refine ⟨_, rfl, ?_⟩
    rw [level_line, level_line, Listing.isClosing, content_line]
    exact h
  other _ not := absurd ((r.endsIn_line _).2 brace) not

def Fitting : List Row → Prop
  | [] => True
  | r :: rest => Listing.Fits r.line (rest.head?.map line) ∧ Fitting rest

theorem fitting_append {xs ys : List Row} (hxs : Fitting xs) (hys : Fitting ys)
    (h : ∀ x ∈ xs, ∀ y, ys.head? = some y → y.depth ≤ x.depth) : Fitting (xs ++ ys) := by
  induction xs with
  | nil => exact hys
  | cons x xs ih =>
    refine ⟨?_, ih hxs.2 fun z hz => h z (.tail _ hz)⟩
    cases xs with
    | cons z zs => exact hxs.1
    | nil =>
      have last : Listing.Fits x.line none := hxs.1
      refine ⟨fun ends => ?_, fun ends => ?_, fun _ _ n found => ?_⟩
      · obtain ⟨_, wrong, -⟩ := last.colon ends
        cases wrong
      · obtain ⟨_, wrong, -⟩ := last.brace ends
        cases wrong
      · obtain ⟨y, is, rfl⟩ := Option.map_eq_some_iff.1 found
        rw [level_line, level_line]
        exact h x (.head _) y is

/-- A row that goes on with a test on its level; the rows between them are deeper. -/
def Covered (before : List Row) (r : Row) : Prop :=
  ∃ earlier test suite, before = earlier ++ test :: suite ∧ test.isTest ∧ test.ends ':' ∧
    test.depth = r.depth ∧ ∀ s ∈ suite, r.depth < s.depth

theorem Covered.after {before : List Row} {r : Row} (h : Covered before r) (earlier : List Row) :
    Covered (earlier ++ before) r := by
  obtain ⟨xs, test, suite, rfl, rest⟩ := h
  exact ⟨earlier ++ xs, test, suite, (append_assoc _ _ _).symm, rest⟩

end Row

theorem split_append {α : Type} {xs ys before after : List α} {a : α}
    (h : xs ++ ys = before ++ a :: after) :
    (∃ rest, xs = before ++ a :: rest) ∨ ∃ more, before = xs ++ more ∧ ys = more ++ a :: after := by
  rcases append_eq_append_iff.1 h with ⟨more, split, rest⟩ | ⟨more, split, rest⟩
  · exact .inr ⟨more, split, rest⟩
  · cases more with
    | nil => exact .inr ⟨[], by rw [split, append_nil, append_nil], rest.symm⟩
    | cons b more =>
      cases rest
      exact .inl ⟨more, split⟩

namespace Level

variable {d : Nat} {b : Bool} {rows : List Row}

theorem head_depth (h : Level d b rows) {r : Row} (head : rows.head? = some r) : r.depth = d := by
  cases h with
  | nil => cases head
  | row depth | suite depth | table depth =>
    cases head
    exact depth

theorem le_depth (h : Level d b rows) : ∀ r ∈ rows, d ≤ r.depth := by
  induction h with
  | nil => exact forall_mem_nil _
  | row depth _ _ _ ih => exact forall_mem_cons.2 ⟨depth.ge, ih⟩
  | suite depth _ _ _ _ _ _ inner ih =>
    exact forall_mem_cons.2 ⟨depth.ge,
      forall_mem_append.2 ⟨fun r hr => Nat.le_of_succ_le (inner r hr), ih⟩⟩
  | table depth _ _ _ depth' _ _ _ _ inner ih =>
    exact forall_mem_cons.2 ⟨depth.ge,
      forall_mem_append.2 ⟨fun r hr => Nat.le_of_succ_le (inner r hr),
        forall_mem_cons.2 ⟨depth'.ge, ih⟩⟩⟩

/-- **Each row of a level fits the one after it.** -/
theorem fitting (h : Level d b rows) : Row.Fitting rows := by
  induction h with
  | nil => exact trivial
  | row depth quiet _ after ih =>
    refine ⟨Row.fits_of_quiet quiet fun n found => ?_, ih⟩
    rw [after.head_depth found, depth]
  | @suite d b test r body rest depth colon _ filled inner _ after ih ih' =>
    refine ⟨?_, Row.fitting_append ih ih' fun x hx y found => ?_⟩
    · obtain ⟨n, more, rfl⟩ := exists_cons_of_ne_nil filled
      exact Row.fits_of_colon colon (by rw [inner.head_depth rfl, depth])
    · rw [after.head_depth found]
      exact Nat.le_of_succ_le (inner.le_depth x hx)
  | @table d b r close body rest depth brace _ inner depth' closes quiet _ after ih ih' =>
    have close : Row.Fitting (close :: rest) := by
      refine ⟨Row.fits_of_quiet quiet fun n found => ?_, ih'⟩
      rw [after.head_depth found, depth']
    refine ⟨?_, Row.fitting_append ih close fun x hx y found => ?_⟩
    · cases body with
      | nil => exact Row.fits_of_brace brace (.inr ⟨closes, by rw [depth, depth']⟩)
      | cons n more => exact Row.fits_of_brace brace (.inl (by rw [inner.head_depth rfl, depth]))
    · cases found
      rw [depth']
      exact Nat.le_of_succ_le (inner.le_depth x hx)

/-- **A row that goes on with a test stands on the level of the test**, right after its suite. -/
theorem covered (h : Level d b rows) {before after : List Row} {r : Row}
    (split : rows = before ++ r :: after) (goes : r.isElse) :
    Row.Covered before r ∨ b = true ∧ before = [] ∧ r.depth = d := by
  induction h generalizing before after with
  | nil => cases before <;> cases split
  | row depth _ plain _ ih =>
    cases before with
    | nil =>
      cases split
      exact absurd goes plain
    | cons x before =>
      obtain ⟨rfl, inside⟩ := List.cons.inj split
      rcases ih inside with covered | ⟨wrong, -⟩
      · exact .inl (covered.after [_])
      · cases wrong
  | @suite d b test t body rest depth colon continues _ inner tests _ ih ih' =>
    cases before with
    | nil =>
      cases split
      exact .inr ⟨continues goes, rfl, depth⟩
    | cons x before =>
      obtain ⟨rfl, inside⟩ := List.cons.inj split
      -- the row is in the suite, or beyond it; right after it only if the suite is that of a test
      rcases split_append inside with ⟨more, within⟩ | ⟨more, rfl, beyond⟩
      · rcases ih within with covered | ⟨wrong, -⟩
        · exact .inl (covered.after [_])
        · cases wrong
      · rcases ih' beyond with covered | ⟨is, rfl, same⟩
        · exact .inl ((covered.after body).after [_])
        · refine .inl ⟨[], t, body, by rw [append_nil]; rfl, tests is, colon, by rw [depth, same], ?_⟩
          intro s hs
          rw [same]
          exact inner.le_depth s hs
  | @table d b t close body rest depth _ plain inner _ _ _ plain' _ ih ih' =>
    cases before with
    | nil =>
      cases split
      exact absurd goes plain
    | cons x before =>
      obtain ⟨rfl, inside⟩ := List.cons.inj split
      -- neither the row that opens a table nor the one that closes it goes on with a test
      rcases split_append inside with ⟨more, within⟩ | ⟨more, rfl, beyond⟩
      · rcases ih within with covered | ⟨wrong, -⟩
        · exact .inl (covered.after [_])
        · cases wrong
      · cases more with
        | nil =>
          cases beyond
          exact absurd goes plain'
        | cons y more =>
          obtain ⟨rfl, later⟩ := List.cons.inj beyond
          rcases ih' later with covered | ⟨wrong, -⟩
          · exact .inl (((covered.after [_]).after body).after [_])
          · cases wrong

end Level

/-! ## From the rows to the text -/

namespace Listing

theorem layout_rows {d : Nat} {rows : List Row} (h : Level d false rows) :
    Layout (rows.map Row.line) where
  indented line hline := by
    obtain ⟨r, -, rfl⟩ := mem_map.1 hline
    rw [Row.leading_line, Row.level_line]
  fits before line after split := by
    obtain ⟨xs, ys, rfl, rfl, rest⟩ := map_eq_append_iff.1 split
    obtain ⟨r, zs, rfl, rfl, rfl⟩ := map_eq_cons_iff.1 rest
    have fitting := h.fitting
    clear h split rest
    rw [head?_map]
    induction xs with
    | nil => exact fitting.1
    | cons x xs ih => exact ih fitting.2
  continued before line after split goes := by
    obtain ⟨xs, ys, rfl, rfl, rest⟩ := map_eq_append_iff.1 split
    obtain ⟨r, zs, rfl, rfl, rfl⟩ := map_eq_cons_iff.1 rest
    rw [isContinued, Row.content_line] at goes
    obtain ⟨earlier, test, suite, rfl, tests, colon, same, deeper⟩ | ⟨wrong, -⟩ := h.covered rfl goes
    · refine ⟨earlier.map Row.line, test.line, suite.map Row.line, map_append, ⟨?_, ?_⟩, ?_, ?_⟩
      · rw [Row.content_line]
        exact tests
      · exact (test.endsIn_line _).2 colon
      · rw [Row.level_line, Row.level_line, same]
      · intro s hs
        obtain ⟨t, ht, rfl⟩ := mem_map.1 hs
        rw [Row.level_line, Row.level_line]
        exact deeper t ht
    · cases wrong

theorem isStatement_comment (depth : Nat) {c : String} (head : c.toList.head? = some '#') :
    isStatement (indentation depth ++ c).toList = false := by
  rw [isStatement, (content_indented depth head (by decide)).2, head]
  rfl

theorem filter_items (items : List Item) :
    (items.map Item.chars).filter isStatement = (Item.rows items).map Row.line := by
  induction items with
  | nil => rfl
  | cons item items ih =>
    rw [map_cons]
    cases item with
    | blank => exact (filter_cons_of_neg (by decide)).trans ih
    | mark depth line =>
      have starts : "# line ".toList <+: ("# line " ++ toString line).toList := by
        rw [String.toList_append]
        exact prefix_append _ _
      refine (filter_cons_of_neg ?_).trans ih
      rw [Item.chars, Item.line, isStatement_comment depth (head?_of_leading starts (by decide))]
      exact Bool.false_ne_true
    | row r => exact (filter_cons_of_pos r.isStatement_line).trans (congrArg (r.line :: ·) ih)

/-! ## Whole programs -/

def titleLine (name : String) : String := "# Template " ++ Text.quoted name ++ "."

def legend : String := "# Line markers refer to the template source."

/-- The text of a program whose lines after the first comments are known. -/
def programText (name : String) (items : List Item) : String :=
  titleLine name ++ "\n" ++ (legend ++ "\n" ++ Item.text items)

theorem programText_append (name : String) (xs ys : List Item) :
    programText name xs ++ Item.text ys = programText name (xs ++ ys) := by
  simp only [programText, Item.text_append, String.append_assoc]

theorem preamble_empty (name template : String) :
    preamble name (empty template) =
      { empty template with text := programText name [.blank], statements := 2 } := by
  have indentation_zero : indentation 0 = "" := rfl
  simp [preamble, line, start, raw, empty, String.join, indentation_zero,
    programText, titleLine, legend, Item.text, Item.line, String.append_assoc]

theorem text_printed {name template : String} {items : List Item} {v : Writer}
    (h : Printed items (preamble name (empty template)) v) :
    v.text = programText name (.blank :: items) := by
  rw [h.text, preamble_empty]
  exact programText_append name [.blank] items

theorem lines_program (name : String) (items : List Item) :
    lines (programText name items) =
      (titleLine name).toList :: legend.toList :: (items.map Item.chars ++ [[]]) := by
  have oneLine : OneLine (titleLine name) :=
    oneLine_append (oneLine_append (by decide) (oneLine_quoted name)) (by decide)
  rw [programText, lines_cons oneLine, lines_cons (by decide),
    ← String.append_empty (s := Item.text items), lines_text]
  rfl

theorem statements_program (name : String) (items : List Item) :
    statements (programText name items) = (Item.rows items).map Row.line := by
  have title : isStatement (titleLine name).toList = false := by
    have starts : "# Template ".toList <+: (titleLine name).toList := by
      rw [titleLine, String.toList_append, String.toList_append, append_assoc]
      exact prefix_append _ _
    have comment := isStatement_comment 0 (head?_of_leading starts (by decide))
    rwa [show indentation 0 = "" from rfl, String.empty_append] at comment
  rw [statements, lines_program, filter_cons_of_neg (by rw [title]; exact Bool.false_ne_true),
    filter_cons_of_neg (by decide), filter_append, filter_items]
  exact append_nil _

variable {module : Node} {unit : String → String} {text : String}

theorem kind_of_isSorted (h : module.IsSorted) : module.kind = .module := by
  cases h
  rfl

theorem compile_ok (kind : module.kind = .module) :
    compile module unit = .ok text ↔ ∃ w, program (lower module) (unit (module.text "filename"))
      (empty (module.text "filename")) = w ∧ w.failure = none ∧ w.text = text := by
  rw [exists_eq_left', compile, kind, bne_self_eq_false, if_neg Bool.false_ne_true]
  dsimp only
  generalize program (lower module) _ _ = w
  cases w.failure with
  | none => exact ⟨fun done => ⟨rfl, Except.ok.inj done⟩, fun done => congrArg _ done.2⟩
  | some f => exact ⟨fun done => (nomatch done), fun done => (nomatch done.1)⟩

theorem compile_printed (h : module.IsSorted) (short : OneLine (unit (module.text "filename")))
    (done : compile module unit = .ok text) :
    ∃ items, text = programText (module.text "filename") items ∧ Level 0 false
      (Item.rows items) := by
  obtain ⟨_, rfl, none, rfl⟩ := (compile_ok (kind_of_isSorted h)).1 done
  obtain ⟨e, laid, program⟩ := laid_program h short
  rw [program] at none ⊢
  have start (name template : String) : (preamble name (empty template)).failure = .none ∧
      (preamble name (empty template)).depth = 0 := by
    rw [preamble_empty]
    exact ⟨rfl, rfl⟩
  rcases laid.printed _ (start _ _).1 with failed | ⟨xs, printed, block⟩
  · rw [none] at failed
    cases failed
  · rw [(start _ _).2] at block
    exact ⟨.blank :: xs, text_printed printed, block⟩

theorem layout_compile (h : module.IsSorted) (short : OneLine (unit (module.text "filename")))
    (done : compile module unit = .ok text) : Layout (statements text) := by
  obtain ⟨items, rfl, block⟩ := compile_printed h short done
  rw [statements_program]
  exact layout_rows block

end Listing

namespace Environment

theorem oneLine_unitName (name source : String) : OneLine (unitName name source) := by
  refine oneLine_append (by decide) fun there => ?_
  have taken : ((Digest.sha256 (name ++ "\x00" ++ source)).take 32).toString.toList =
      (Digest.sha256 (name ++ "\x00" ++ source)).toList.take 32 := by simp
  rw [taken] at there
  have whole := mem_of_mem_take there
  rw [Digest.sha256, Digest.ofBytes, String.toList_ofList, mem_flatMap] at whole
  obtain ⟨w, -, digit⟩ := whole
  exact newline_not_mem_hexDigits 8 _ digit

/-- **Every listing has a layout.**  Whatever a page says, if it is compiled, then its program is
indented by four spaces a level, suites and tables stand one level below the lines that open them, and
a line that goes on with a test stands on the level of the test. -/
theorem layout_compileSource (options : Options) (valid : options.complaints = [])
    (loader : String → Except Failure String) (host : Host) :
    ∃ env, make options [] loader host = .ok env ∧ ∀ source name text,
      env.compileSource source name = .ok text → Listing.Layout (Listing.statements text) := by
  refine ⟨ofCore options loader host, make_core options valid loader host, fun source name text done => ?_⟩
  cases read : (ofCore options loader host).tree source name with
  | error f =>
    rw [compileSource, read] at done
    cases done
  | ok module =>
    have compiled : Listing.compile module (fun _ => unitName name source) = .ok text := by
      rw [compileSource, read] at done
      exact done
    have sorted := isSorted_tree Registry.grammar_core_sound read
    refine Listing.layout_compile sorted ?_ compiled
    exact oneLine_unitName name source

/-- Text, and on the second line a condition that asks for a block. -/
def sideSource : String := "a\n\x7b% if block('side') %\x7db\x7b% endif %\x7d"

def sideTokens : Array Token :=
  #[⟨.text, "a\n", 1⟩, ⟨.blockStart, "", 2⟩, ⟨.name, "if", 2⟩, ⟨.name, "block", 2⟩,
    ⟨.punctuation, "(", 2⟩, ⟨.string, "side", 2⟩, ⟨.punctuation, ")", 2⟩, ⟨.blockEnd, "", 2⟩,
    ⟨.text, "b", 2⟩, ⟨.blockStart, "", 2⟩, ⟨.name, "endif", 2⟩, ⟨.blockEnd, "", 2⟩,
    ⟨.endOfTemplate, "", 2⟩]

/-- A page with a text and a condition is compiled, and its program has a layout. -/
theorem layout_compileSource_side :
    Options.complaints {} = [] ∧
    ∃ env, make {} [] (fun _ => .ok sideSource) ⟨#[]⟩ = .ok env ∧
      ∃ text, env.compileSource sideSource "page" = .ok text ∧
        Listing.Layout (Listing.statements text) := by
  have valid : Options.complaints {} = [] := by decide
  obtain ⟨env, made, layout⟩ := layout_compileSource {} valid (fun _ => .ok sideSource) ⟨#[]⟩
  have same : ofCore {} (fun _ => .ok sideSource) ⟨#[]⟩ = env :=
    Except.ok.inj ((make_core {} valid (fun _ => .ok sideSource) ⟨#[]⟩).symm.trans made)
  have scanned : env.tokenize sideSource "page" = .ok sideTokens :=
    same ▸ tokenize_core {} _ _ (by decide) "page"
  have compiled : (env.compileSource sideSource "page").isOk = true := by
    rw [compileSource, tree, scanned, ← same]
    decide +kernel
  cases done : env.compileSource sideSource "page" with
  | error f =>
    rw [done] at compiled
    cases compiled
  | ok text => exact ⟨valid, env, made, text, done, layout _ _ _ done⟩

end Environment

end Stencil
