import Stencil.Proofs.Defined
import Stencil.Proofs.Layout
import Stencil.Proofs.Lexemes

/-!
# Verbatim sections

What stands between `{% verbatim %}` and `{% endverbatim %}` is shown as it stands there.

The section ends at the first tag that closes it. Such a tag has no brace in it but the first one and
the last one, so none can begin in the body and end behind it (`Scanner.sectionBody?_append`). The
body then comes through the program of the template as a quoted text. Nothing keeps the listing of a
page that has only texts and prints from being a program (`Listing.compile_showing`).
-/

namespace Stencil

open List Listing

namespace Scanner

/-! ## The end of a section -/

/-- A tag with a name and nothing else in it: `{%`, perhaps `-`, the name between white space, perhaps
`-` again, `%}`. -/
def IsTag (name t : List Char) : Prop :=
  ∃ dash lead gap last, dash ∈ [[], ['-']] ∧ (∀ c ∈ lead, isTagSpace c = true) ∧
    (∀ c ∈ gap, isTagSpace c = true) ∧ last ∈ [[], ['-']] ∧
    t = '{' :: '%' :: (dash ++ (lead ++ (name ++ (gap ++ (last ++ ['%', '}'])))))

variable {name t cs b tail : List Char}

theorem IsTag.brace_not_mem_tail (h : IsTag name t) (plain : '{' ∉ name) : '{' ∉ t.tail := by
  obtain ⟨dash, lead, gap, last, hdash, hlead, hgap, hlast, rfl⟩ := h
  have blank (cs : List Char) (h : ∀ c ∈ cs, isTagSpace c = true) : '{' ∉ cs := fun there =>
    absurd (h _ there) (by decide)
  have option (cs : List Char) (h : cs ∈ [[], ['-']]) : '{' ∉ cs := by
    rcases mem_pair.1 h with rfl | rfl <;> decide
  simp [blank lead hlead, blank gap hgap, option dash hdash, option last hlast, plain]

theorem takeWhile_append_drop (cs : List Char) :
    cs.takeWhile isTagSpace ++ cs.drop (cs.takeWhile isTagSpace).length = cs :=
  prefix_iff_eq_append.1 (List.takeWhile_prefix _)

theorem isTag_of_split {dash lead gap rest : List Char} (hdash : dash ∈ [[], ['-']])
    (hlead : ∀ c ∈ lead, isTagSpace c = true) (hgap : ∀ c ∈ gap, isTagSpace c = true)
    (last : List Char) (hlast : last ∈ [[], ['-']]) :
    ∃ t, IsTag name t ∧ t <+: '{' :: '%' ::
      (dash ++ (lead ++ (name ++ (gap ++ (last ++ '%' :: '}' :: rest))))) := by
  refine ⟨_, ⟨dash, lead, gap, last, hdash, hlead, hgap, hlast, rfl⟩, rest, ?_⟩
  simp only [cons_append, append_assoc, nil_append]

theorem exists_isTag (h : (tagLength? name cs).isSome = true) : ∃ t, IsTag name t ∧ t <+: cs := by
  unfold tagLength? at h
  split at h
  · next rest =>
    have start : ∃ dash ∈ [[], ['-']],
        dash ++ rest.drop (if rest.head? == some '-' then 1 else 0) = rest := by
      by_cases dashed : rest.head? = some '-'
      · obtain ⟨r, rfl⟩ := head?_eq_some_iff.1 dashed
        exact ⟨['-'], by simp, rfl⟩
      · exact ⟨[], by simp, by simp [dashed]⟩
    dsimp only at h
    -- from here on it does not matter whether there was a dash
    generalize (if rest.head? == some '-' then 1 else 0) = d at h start
    obtain ⟨dash, hdash, same⟩ := start
    have lead := takeWhile_append_drop (rest.drop d)
    rw [drop_drop] at lead
    split at h
    · next begins =>
      generalize hbody : rest.drop (d + ((rest.drop d).takeWhile isTagSpace).length) = body at h lead begins
      have named := prefix_iff_eq_append.1 (List.isPrefixOf_iff_prefix.1 begins)
      have gap := takeWhile_append_drop (body.drop name.length)
      rw [drop_drop] at gap
      have blank (cs : List Char) : ∀ c ∈ cs.takeWhile isTagSpace, isTagSpace c = true :=
        fun _ => mem_takeWhile_imp
      rw [← same, ← lead, ← named, ← gap]
      split at h
      · next after ends =>
        rw [ends]
        exact isTag_of_split hdash (blank _) (blank _) ['-'] (by simp)
      · next after ends =>
        rw [ends]
        exact isTag_of_split hdash (blank _) (blank _) [] (by simp)
      · next after _ ends =>
        rw [ends]
        exact isTag_of_split hdash (blank _) (blank _) [] (by simp)
      · cases h
    · cases h
  · cases h

theorem sectionBody?_append (plain : '{' ∉ name) (whole : ∀ t, IsTag name t → ¬ t <:+: b)
    (ends : (tagLength? name tail).isSome = true) (brace : tail.head? = some '{') :
    sectionBody? name (b ++ tail) = some (b, tail) := by
  induction b with
  | nil =>
    cases tail with
    | nil => cases brace
    | cons c rest => rw [nil_append, sectionBody?, if_pos ends]
  | cons c b ih =>
    have none : ¬(tagLength? name (c :: (b ++ tail))).isSome = true := by
      intro found
      obtain ⟨t, tag, begins⟩ := exists_isTag found
      rcases List.prefix_or_prefix_of_prefix begins (prefix_append (c :: b) tail) with
        inside | ⟨u, rfl⟩
      · exact whole t tag inside.isInfix
      · cases u with
        | nil => exact whole _ tag (by rw [append_nil])
        | cons d u =>
          obtain ⟨v, same⟩ := (prefix_append_right_inj (c :: b)).1 begins
          rw [← same] at brace
          cases brace
          exact tag.brace_not_mem_tail plain (by simp)
    rw [cons_append, sectionBody?, if_neg none,
      ih fun t tag inside => whole t tag (inside.trans (suffix_cons c b).isInfix)]
    rfl

/-! ## The tokens of a section -/

def enclosed (b : List Char) : List Char :=
  "\x7b% verbatim %\x7d".toList ++ (b ++ "\x7b% endverbatim %\x7d".toList)

theorem tag?_enclosed (start : b.head? ≠ some '\n') :
    tag? ["verbatim", "raw"] (enclosed b) = some ("verbatim", 14) := by
  have follows (rest : List Char) (other : rest.head? ≠ some '\n') :
      tagLength? "verbatim".toList ("\x7b% verbatim %\x7d".toList ++ rest) = some 14 := by
    cases rest with
    | nil => rfl
    | cons c rest =>
      have other : c ≠ '\n' := fun same => other (congrArg some same)
      simp [tagLength?, isTagSpace, other]
  unfold enclosed
  rw [tag?, findSome?_cons, follows _ (by cases b <;> simp_all)]
  rfl

theorem readVerbatim_enclosed {s : State} (here : s.cursor.rest = enclosed b)
    (whole : ∀ t, IsTag "endverbatim".toList t → ¬ t <:+: b) :
    ∃ s', readVerbatim s "verbatim" 14 = .ok s' ∧ s'.cursor.rest = [] ∧ s'.modes = s.modes ∧
      s'.tokens = if b.isEmpty then s.tokens else
        s.tokens.push ⟨.text, String.ofList b, s.cursor.line⟩ := by
  have rest : (s.advance 14).cursor.rest = b ++ "\x7b% endverbatim %\x7d".toList := by
    show s.cursor.rest.drop 14 = _
    rw [here]
    rfl
  have line : (s.advance 14).cursor.line = s.cursor.line := by
    show s.cursor.line + breaks (s.cursor.rest.take 14) = _
    rw [here]
    rfl
  have body : sectionBody? ("end" ++ "verbatim").toList (s.advance 14).cursor.rest =
      some (b, "\x7b% endverbatim %\x7d".toList) := by
    rw [rest, show "end" ++ "verbatim" = "endverbatim" from rfl]
    exact sectionBody?_append (by decide) whole rfl rfl
  have undashed : ("\x7b% endverbatim %\x7d".toList.drop 2).head? ≠ some '-' := by decide
  have size : (tagLength? ("end" ++ "verbatim").toList "\x7b% endverbatim %\x7d".toList).getD 0 = 17 := rfl
  simp only [readVerbatim, body, size, line, beq_iff_eq, if_neg undashed]
  refine ⟨_, rfl, ?_, ?_, ?_⟩
  · have whole : (b ++ "\x7b% endverbatim %\x7d".toList).drop (b.length + 17) = [] := by
      rw [drop_append, drop_of_length_le (by omega), Nat.add_sub_cancel_left]
      rfl
    rw [← whole, ← rest]
    split <;> rfl
  · split <;> rfl
  · split <;> rfl

theorem readPlain_enclosed (start : b.head? ≠ some '\n') :
    readPlain (Scanner.start (enclosed b)) = readVerbatim (Scanner.start (enclosed b)) "verbatim" 14 := by
  have tag := tag?_enclosed start
  obtain ⟨cs, shape⟩ : ∃ cs, enclosed b = '{' :: '%' :: ' ' :: cs := ⟨_, rfl⟩
  rw [shape] at tag ⊢
  simp [readPlain, Scanner.start, plainText, startsDelimiter, State.advance, Cursor.advance, tag, breaks]

theorem tokenize_enclosed (ops : Operators) {source : String} (same : source.toList = enclosed b)
    (unbroken : ¬ ['\r', '\n'] <:+: b) (start : b.head? ≠ some '\n')
    (whole : ∀ t, IsTag "endverbatim".toList t → ¬ t <:+: b) :
    ∃ line, tokenize ops source = .ok
      ((if b.isEmpty then #[] else #[⟨.text, String.ofList b, 1⟩]).push ⟨.endOfTemplate, "", line⟩) := by
  have plain : normalize source.toList = enclosed b := by
    unfold enclosed at same ⊢
    rw [same, normalize_append (by simp), normalize_append (by simp),
      normalize_of_unbroken unbroken]
    rfl
  obtain ⟨s, read, rest, modes, tokens⟩ :=
    readVerbatim_enclosed (s := Scanner.start (enclosed b)) rfl whole
  have ends (fuel : Nat) : scan ops fuel s = finish s := by
    cases fuel with
    | zero => rfl
    | succ fuel => rw [scan, rest]; rfl
  refine ⟨s.cursor.line, ?_⟩
  calc tokenize ops source = scan ops (enclosed b).length (Scanner.start (enclosed b)) := by
        rw [tokenize, plain]
    _ = finish s := by
        obtain ⟨n, size⟩ : ∃ n, (enclosed b).length = n + 1 := ⟨_, rfl⟩
        have first : step ops (Scanner.start (enclosed b)) = .ok s :=
          (readPlain_enclosed start).trans read
        rw [size, scan, if_neg (by simp [Scanner.start, ← length_eq_zero_iff, size]), first]
        exact ends n
    _ = _ := by rw [finish, modes, tokens]; rfl

end Scanner

namespace Listing

open Writer

/-! ## Listings of whole rows -/

def sheet (rows : List (List Char)) : String := String.ofList (rows.flatMap (· ++ ['\n']))

/-- A writer that has written whole rows and no expression that needs a variable. -/
def page (rows : List (List Char)) (d n : Nat) (l : Int) (t : String) : Writer :=
  ⟨sheet rows, d, n, 0, l, t, none⟩

def spaces (d : Nat) : List Char := List.replicate (4 * d) ' '

variable {rows shown : List (List Char)} {d n : Nat} {l : Int} {name unit : String}

theorem sheet_concat (r : List Char) : sheet (rows ++ [r]) = sheet rows ++ String.ofList r ++ "\n" := by
  simp [sheet, String.ofList_append, String.append_assoc]

theorem line_page (s : String) :
    line s (page rows d n l name) = page (rows ++ [spaces d ++ s.toList]) d (n + 1) l name := by
  simp [line, start, page, sheet_concat, indentation, spaces, String.ofList_append,
    String.append_assoc]

theorem row_page (p q r : String) {s : String} (ends : s = r ++ "\n") :
    raw s (raw q (start [p] (page rows d n l name))) =
      page (rows ++ [spaces d ++ (p.toList ++ (q.toList ++ r.toList))]) d (n + 1) l name := by
  rw [ends]
  simp [raw, start, page, sheet_concat, indentation, spaces, String.ofList_append,
    String.append_assoc]

theorem blank_page : raw "\n" (page rows d n l name) = page (rows ++ [[]]) d n l name := by
  simp [raw, page, sheet_concat]

theorem mark_page {m : Int} (other : m ≠ l) : mark m (page rows d n l name) =
    page (rows ++ [spaces d ++ ("# line " ++ toString m).toList]) d n m name := by
  simp only [mark, page, if_neg other, sheet_concat, indentation, spaces, String.ofList_append,
    String.ofList_toList, String.append_assoc]
  rfl

theorem indent_page : indent (page rows d n l name) = page rows (d + 1) n l name := rfl

theorem outdent_page : outdent (page rows (d + 1) n l name) = page rows d n l name := rfl

theorem suite_page {e : Emit} {k : Nat} {m : Int}
    (written : e (page rows (d + 1) n l name) = page (rows ++ shown) (d + 1) (n + (k + 1)) m name) :
    suite e (page rows d n l name) = page (rows ++ shown) d (n + (k + 1)) m name := by
  have more : n + (k + 1) ≠ n := by omega
  unfold suite
  rw [indent_page, written]
  exact (congrArg outdent (if_neg more)).trans outdent_page

/-! ## Templates without blocks -/

def rowsBefore (name unit : String) : List (List Char) :=
  [spaces 0 ++ ("# Template ".toList ++ ((Text.quoted name).toList ++ ".".toList)),
   spaces 0 ++ "# Line markers refer to the template source.".toList,
   [],
   spaces 0 ++ ("def ".toList ++ (unit.toList ++ "(this):".toList)),
   spaces 1 ++ "def do_display(context, blocks):".toList]

def rowsShowing (shown : List (List Char)) : List (List Char) :=
  (spaces 2 ++ "_out = []".toList) :: (shown ++ [spaces 2 ++ "return \"\".join(_out)".toList])

/-- What stands above the rows of the body. -/
def rowsAbove (name unit : String) : List (List Char) :=
  rowsBefore name unit ++ [spaces 2 ++ "_out = []".toList]

def noParent : List Char := spaces 2 ++ "return None".toList

def rowsAfter (name : String) : List (List Char) :=
  [[],
   spaces 1 ++ "return \x7b".toList,
   spaces 2 ++ ("\"name\": ".toList ++ ((Text.quoted name).toList ++ ",".toList)),
   spaces 2 ++ "\"display\": do_display,".toList,
   spaces 2 ++ "\"parent\": get_parent,".toList,
   spaces 2 ++ "\"blocks\": \x7b".toList,
   spaces 2 ++ "\x7d,".toList,
   spaces 1 ++ "\x7d".toList]

def programRows (name unit : String) (shown : List (List Char)) : List (List Char) :=
  rowsBefore name unit ++ (rowsShowing shown ++ [] :: parentHeader :: noParent :: rowsAfter name)

theorem program_page {body : Node} {k : Nat} {m : Int}
    (written : (lower body).emit (page (rowsAbove name unit) 2 5 0 name) =
      page (rowsAbove name unit ++ shown) 2 (5 + k) m name) :
    ∃ n, program (lower (Node.ofModule body .absent [] name)) unit (Writer.empty name) =
      page (programRows name unit shown) 0 n m name := by
  have first : Writer.empty name = page [] 0 0 0 name := rfl
  have part : (lower (Node.ofModule body .absent [] name)).part 0 = lower body := rfl
  have parent : ((lower (Node.ofModule body .absent [] name)).part 1).node.isAbsent = true := rfl
  have blocks : ((lower (Node.ofModule body .absent [] name)).part 2).parts = [] := rfl
  have file : (lower (Node.ofModule body .absent [] name)).node.text "filename" = name := rfl
  have header : spaces 1 ++ "def get_parent(context):".toList = parentHeader := rfl
  have display {rows : List (List Char)} (before : rows = rowsBefore name unit) :
      suite (all [line "_out = []", (lower body).emit, line "return \"\".join(_out)"])
        (page rows 1 4 0 name) = page (rows ++ rowsShowing shown) 1 (4 + (k + 1 + 1)) m name := by
    subst before
    rw [rowsAbove] at written
    refine suite_page ?_
    simp only [Writer.all_cons, Writer.all_nil, line_page, written, rowsShowing, append_assoc,
      cons_append, nil_append]
    congr 1
    omega
  have getParent (rows : List (List Char)) (n : Nat) :
      suite (line "return None") (page rows 1 n m name) =
        page (rows ++ [noParent]) 1 (n + (0 + 1)) m name := suite_page (line_page _)
  refine ⟨4 + (k + 1 + 1) + 9, ?_⟩
  unfold program
  rw [first]
  simp only [part, parent, blocks, file, Writer.all_cons, Writer.all_nil, if_true, map_nil, line_page,
    blank_page, indent_page, string, Nat.zero_add, Nat.reduceAdd]
  rw [display (by simp only [String.toList_append, append_assoc, cons_append, nil_append, rowsBefore,
    toString])]
  simp only [getParent, blank_page, indent_page, outdent_page, line_page,
    row_page "\"name\": " (Text.quoted name) "," (show ",\n" = "," ++ "\n" from rfl)]
  simp only [String.toList_append, append_assoc, cons_append, nil_append, programRows,
    rowsBefore, rowsAfter, header, toString]

/-! ## Nothing is in the way -/

theorem splitOn_sheet (clean : ∀ r ∈ rows, '\n' ∉ r) :
    (sheet rows).toList.splitOn '\n' = rows ++ [[]] := by
  rw [sheet, String.toList_ofList]
  induction rows with
  | nil => rfl
  | cons r rows ih =>
    rw [flatMap_cons, append_assoc, singleton_append,
      splitOn_append_cons_self_of_not_mem (clean r mem_cons_self),
      ih fun r hr => clean r (mem_cons_of_mem _ hr), cons_append]

theorem map_snd_numberedLines (text : String) :
    (numberedLines text).map Prod.snd = text.toList.splitOn '\n' := by
  rw [numberedLines, map_map]
  exact zipIdx_map_fst _ _

section Lines

variable {lines : List NumberedLine}

theorem badCharacter?_eq_none (h : ∀ p ∈ lines, blockName? p.2 = none) :
    badCharacter? lines = none := by
  rw [badCharacter?, findSome?_eq_none_iff]
  intro p hp
  simp only [h p hp]
  rfl

theorem strayFrom_eq_none (h : ∀ p ∈ lines, p.2 ≠ [] → p.2.head? = some ' ') (opens : Bool) :
    strayFrom opens lines = none := by
  induction lines generalizing opens with
  | nil => rfl
  | cons p lines ih =>
    have ih := ih fun q hq => h q (mem_cons_of_mem _ hq)
    obtain ⟨n, row⟩ := p
    unfold strayFrom
    dsimp only
    split
    · exact ih opens
    · exact ih opens
    · next filled _ =>
      rw [if_neg]
      · exact ih _
      · cases row with
        | nil => exact absurd rfl filled
        | cons c row =>
          cases h _ mem_cons_self (cons_ne_nil _ _)
          simp [margin]

theorem blocksInParent?_eq_none (unit : String) {before after : List (List Char)} {row : List Char}
    (same : lines.map Prod.snd = before ++ parentHeader :: row :: after)
    (other : parentHeader ∉ before) (plain : nameColumn? "blocks".toList 1 ' ' false row = none) :
    blocksInParent? unit lines = none := by
  have next : (((lines.dropWhile (·.2 ≠ parentHeader)).drop 1).head?).map Prod.snd = some row := by
    have skipped : ∀ r ∈ before, decide (r ≠ parentHeader) = true := fun r hr =>
      decide_eq_true fun h => other (h ▸ hr)
    rw [← head?_map, map_drop,
      show (fun p : NumberedLine => decide (p.2 ≠ parentHeader)) =
        (fun r => decide (r ≠ parentHeader)) ∘ Prod.snd from rfl,
      ← dropWhile_map, same, dropWhile_append_of_pos skipped,
      dropWhile_cons_of_neg (by simp)]
    rfl
  obtain ⟨p, found, rfl⟩ := Option.map_eq_some_iff.1 next
  simp only [blocksInParent?, found, Option.bind_eq_bind, Option.bind_some, plain, Option.bind_none]

end Lines

theorem nameColumn?_eq_none {row : List Char} (first : 'b' ∉ row) (quote : '"' ∉ row) (column : Nat)
    (before : Char) : nameColumn? "blocks".toList column before false row = none := by
  induction row generalizing column before with
  | nil => rfl
  | cons c row ih =>
    rw [mem_cons, not_or] at first quote
    have other : "blocks".toList.isPrefixOf (c :: row) = false := by
      show ('b' == c && _) = false
      rw [beq_false_of_ne first.1, Bool.false_and]
    rw [nameColumn?.eq_def]
    simp only [Bool.false_eq_true, if_false, Ne.symm quote.1, other, Bool.false_and]
    exact ih first.2 quote.2 _ _

/-- A row for the body of a template that begins no function of a block. -/
structure Inner (r : List Char) : Prop where
  deep : spaces 2 <+: r
  oneLine : '\n' ∉ r
  plain : blockName? r = none

structure UnitName (unit : String) : Prop where
  start : ∃ u, unit.toList = '_' :: u
  oneLine : OneLine unit

theorem newline_not_mem_programRows (named : UnitName unit) (inner : ∀ r ∈ shown, Inner r) :
    ∀ r ∈ programRows name unit shown, '\n' ∉ r := by
  have quoted : '\n' ∉ (Text.quoted name).toList := oneLine_quoted name
  have unit : '\n' ∉ unit.toList := named.oneLine
  simp only [programRows, rowsBefore, rowsShowing, rowsAfter, forall_mem_append,
    forall_mem_cons]
  simp only [mem_append, quoted, unit, false_or]
  exact ⟨by decide, ⟨by decide, fun r hr => (inner r hr).oneLine, by decide⟩, by decide⟩

theorem blockName?_programRows (named : UnitName unit) (inner : ∀ r ∈ shown, Inner r) :
    ∀ r ∈ programRows name unit shown ++ [[]], blockName? r = none := by
  obtain ⟨u, start⟩ := named.start
  have before : ∀ r ∈ rowsBefore name unit, blockName? r = none := by
    simp only [rowsBefore, forall_mem_cons, start]
    exact ⟨rfl, rfl, rfl, rfl, rfl, nofun⟩
  have after : ∀ r ∈ rowsAfter name, blockName? r = none := by
    simp only [rowsAfter, forall_mem_cons]
    exact ⟨rfl, rfl, rfl, rfl, rfl, rfl, rfl, rfl, nofun⟩
  simp only [programRows, rowsShowing, forall_mem_append, forall_mem_cons]
  exact ⟨⟨before, ⟨rfl, fun r hr => (inner r hr).plain, rfl, nofun⟩, rfl, rfl, rfl, after⟩, rfl, nofun⟩

theorem head?_programRows (inner : ∀ r ∈ shown, Inner r) :
    ∀ r ∈ (programRows name unit shown ++ [[]]).drop headLines, r ≠ [] → r.head? = some ' ' := by
  have after : ∀ r ∈ rowsAfter name, r ≠ [] → r.head? = some ' ' := by
    simp only [rowsAfter, forall_mem_cons]
    exact ⟨absurd rfl, fun _ => rfl, fun _ => rfl, fun _ => rfl, fun _ => rfl, fun _ => rfl,
      fun _ => rfl, fun _ => rfl, nofun⟩
  have deep (r : List Char) (hr : r ∈ shown) (_ : r ≠ []) : r.head? = some ' ' := by
    obtain ⟨s, rfl⟩ := (inner r hr).deep
    rfl
  rw [programRows, rowsBefore, headLines]
  simp only [cons_append, nil_append, drop_succ_cons, drop_zero, rowsShowing,
    forall_mem_append, forall_mem_cons]
  exact ⟨fun _ => rfl, fun _ => rfl,
    ⟨⟨deep, fun _ => rfl, nofun⟩, absurd rfl, fun _ => rfl, fun _ => rfl, after⟩, absurd rfl, nofun⟩

theorem parentHeader_not_mem (inner : ∀ r ∈ shown, Inner r) :
    parentHeader ∉ rowsBefore name unit ++ (rowsShowing shown ++ [[]]) := by
  have deep (r : List Char) (h : spaces 2 <+: r) : parentHeader ≠ r := by
    rintro rfl
    revert h
    decide
  have unindented (c : Char) (r : List Char) (h : c ≠ ' ') : parentHeader ≠ c :: r := fun same =>
    h (List.cons.inj same).1.symm
  simp only [rowsBefore, rowsShowing, mem_append, mem_cons, not_or]
  exact ⟨⟨unindented '#' _ (by decide), unindented '#' _ (by decide), cons_ne_nil _ _,
      unindented 'd' _ (by decide), by decide, not_mem_nil⟩,
    ⟨deep _ (prefix_append _ _), fun hr => deep _ (inner _ hr).deep rfl,
      deep _ (prefix_append _ _), not_mem_nil⟩,
    cons_ne_nil _ _, not_mem_nil⟩

/-- Nothing keeps the rows of a template with neither a parent nor blocks from being a program. -/
theorem obstacle?_programRows (named : UnitName unit) (inner : ∀ r ∈ shown, Inner r) :
    obstacle? unit (sheet (programRows name unit shown)) = none := by
  have lines := (map_snd_numberedLines (sheet (programRows name unit shown))).trans
    (splitOn_sheet (newline_not_mem_programRows named inner))
  have row {p : NumberedLine} {ps : List NumberedLine} {rs : List (List Char)}
      (same : ps.map Prod.snd = rs) (hp : p ∈ ps) : p.2 ∈ rs := same ▸ mem_map_of_mem hp
  have stray := strayFrom_eq_none
    (fun p hp => head?_programRows inner _ (row (by rw [map_drop, lines]) hp)) true
  have bad := badCharacter?_eq_none fun p hp => blockName?_programRows named inner _ (row lines hp)
  have shape : programRows name unit shown ++ [[]] =
      rowsBefore name unit ++ (rowsShowing shown ++ [[]]) ++
        parentHeader :: noParent :: (rowsAfter name ++ [[]]) := by
    simp only [programRows, append_assoc, cons_append, nil_append]
  have parent := blocksInParent?_eq_none unit (lines.trans shape) (parentHeader_not_mem inner)
    (nameColumn?_eq_none (by decide) (by decide) 1 ' ')
  simp only [obstacle?, stray?, stray, bad, parent, earlier, Option.or_none]

/-! ## Pages of texts and prints -/

/-- A statement that only shows something. -/
inductive Showing : Node → Prop
  | text (data : String) (line : Int) : Showing (.ofText data line)
  | print {expr : Node} (shown : expr.IsExpression) (line : Int) : Showing (.ofPrint expr line)
  | body {nodes : List Node} (inner : ∀ n ∈ nodes, Showing n) (line : Int) :
    Showing (.ofBody nodes line)

theorem Showing.isStatement {n : Node} (h : Showing n) : n.IsStatement := by
  induction h with
  | text data line => exact .text ..
  | print shown line => exact .print shown
  | body inner line ih => exact .body ih

theorem inner_of_framed {c : String} (h : Framed "_out.append(" Quiet c) :
    Inner (spaces 2 ++ c.toList) := by
  obtain ⟨rest, same⟩ := h.starts
  refine ⟨prefix_append _ _, not_mem_append (by decide) h.oneLine, ?_⟩
  rw [← same]
  rfl

theorem page_of_writes {e : Emit} (h : Writes (Framed "_out.append(" Quiet) e)
    (sound : (e (page rows 2 n l name)).failure = none) :
    ∃ r, Inner r ∧ e (page rows 2 n l name) = page (rows ++ [r]) 2 (n + 1) l name := by
  rcases h.written (page rows 2 n l name) rfl with failed | ⟨c, framed, row⟩
  · rw [sound] at failed
    cases failed
  · refine ⟨_, inner_of_framed framed, row.trans ?_⟩
    simp only [Writer.row, page, sheet_concat, indentation, spaces, String.ofList_append,
      String.ofList_toList, String.append_assoc]

theorem page_of_mark (m : Int) : ∃ shown, (∀ r ∈ shown, Inner r) ∧
    mark m (page rows 2 n l name) = page (rows ++ shown) 2 n m name := by
  by_cases same : m = l
  · subst same
    refine ⟨[], nofun, ?_⟩
    rw [append_nil]
    exact if_pos rfl
  · refine ⟨_, forall_mem_singleton.2 ⟨prefix_append _ _, ?_, ?_⟩, mark_page same⟩
    · rw [String.toList_append]
      exact not_mem_append (by decide) (not_mem_append (by decide) (closed_int m).oneLine)
    · rw [String.toList_append]
      rfl

/-- A mark and a row, as a text or a print is written. -/
theorem page_of_marked {e : Emit} (h : Writes (Framed "_out.append(" Quiet) e) (m : Int)
    (sound : (e (mark m (page rows 2 n l name))).failure = none) :
    ∃ shown, (∀ r ∈ shown, Inner r) ∧
      e (mark m (page rows 2 n l name)) = page (rows ++ shown) 2 (n + 1) m name := by
  obtain ⟨marks, innerMarks, marked⟩ : ∃ marks, (∀ r ∈ marks, Inner r) ∧
      mark m (page rows 2 n l name) = page (rows ++ marks) 2 n m name := page_of_mark m
  rw [marked] at sound ⊢
  obtain ⟨r, inner, written⟩ := page_of_writes h sound
  refine ⟨marks ++ [r], forall_mem_append.2 ⟨innerMarks, forall_mem_singleton.2 inner⟩, ?_⟩
  rw [written, append_assoc]

theorem Showing.emit_page {n : Node} (h : Showing n) : ∀ {rows : List (List Char)} {k : Nat} {l : Int},
    ((lower n).emit (page rows 2 k l name)).failure = none →
    ∃ shown j m, (∀ r ∈ shown, Inner r) ∧
      (lower n).emit (page rows 2 k l name) = page (rows ++ shown) 2 (k + j) m name := by
  induction h with
  | text data line =>
    intro rows k l sound
    have row : Writes (Framed "_out.append(" Quiet)
        (all [start ["_out.append("], string data, raw ")\n"]) :=
      writes_word (by decide) (.quoted (adds_raw (tail_of_shut (c := ")") (by decide))).last)
    obtain ⟨shown, inner, written⟩ := page_of_marked row line sound
    exact ⟨shown, 1, line, inner, written⟩
  | @print expr printed line =>
    intro rows k l sound
    have row : Writes (Framed "_out.append(" Quiet)
        (all [start ["_out.append(this.to_string("], (lower expr).emit, raw "))\n"]) :=
      (writes_part "_out.append(this.to_string(" "))" (by decide) (flat_lower printed)
        (by decide)).mono fun c h =>
          (show Framed ("_out.append(" ++ "this.to_string(") Quiet c from h).weaken
    obtain ⟨shown, inner, written⟩ := page_of_marked row line sound
    exact ⟨shown, 1, line, inner, written⟩
  | @body nodes inner line ih =>
    intro rows k l sound
    have written : ∀ {rows : List (List Char)} {k : Nat} {l : Int},
        (all ((lowerAll nodes).map Piece.emit) (page rows 2 k l name)).failure = none →
        ∃ shown j m, (∀ r ∈ shown, Inner r) ∧
          all ((lowerAll nodes).map Piece.emit) (page rows 2 k l name) =
            page (rows ++ shown) 2 (k + j) m name := by
      clear sound
      induction nodes with
      | nil => exact fun _ => ⟨[], 0, _, nofun, by rw [append_nil]; rfl⟩
      | cons n nodes ihNodes =>
        intro rows k l sound
        obtain ⟨_, others⟩ := forall_mem_cons.1 inner
        obtain ⟨ihFirst, ihOthers⟩ := forall_mem_cons.1 ih
        -- what has failed stays failed, so the first node is written, too
        have idle : Idle (all ((lowerAll nodes).map Piece.emit)) :=
          (laid_map (forall_lowerAll fun m hm => laid_lower (others m hm).isStatement)).idle
        have first : ((lower n).emit (page rows 2 k l name)).failure = none := by
          rw [← Option.not_isSome_iff_eq_none]
          intro failed
          have failed := idle _ failed
          rw [show (all ((lowerAll nodes).map Piece.emit) ((lower n).emit _)).failure = none from sound]
            at failed
          cases failed
        obtain ⟨shown, j, m, innerShown, written⟩ := ihFirst first
        have sound : (all ((lowerAll nodes).map Piece.emit)
            (page (rows ++ shown) 2 (k + j) m name)).failure = none := written ▸ sound
        obtain ⟨more, j', m', innerMore, writtenMore⟩ := ihNodes others ihOthers sound
        refine ⟨shown ++ more, j + j', m', forall_mem_append.2 ⟨innerShown, innerMore⟩, ?_⟩
        calc all ((lowerAll (n :: nodes)).map Piece.emit) (page rows 2 k l name)
          _ = all ((lowerAll nodes).map Piece.emit) ((lower n).emit (page rows 2 k l name)) := rfl
          _ = page (rows ++ shown ++ more) 2 (k + j + j') m' name := by rw [written, writtenMore]
          _ = _ := by rw [append_assoc, Nat.add_assoc]
    exact written sound
/-- **A page of texts and prints is a program.** -/
theorem compile_showing {body : Node} (h : Showing body) (named : UnitName unit)
    (sound : ((lower body).emit (page (rowsAbove name unit) 2 5 0 name)).failure = none) :
    ∃ text, compile (Node.ofModule body .absent [] name) (fun _ => unit) = .ok text ∧
      obstacle? unit text = none := by
  obtain ⟨shown, k, m, inner, written⟩ := h.emit_page sound
  obtain ⟨n, program⟩ : ∃ n, program (lower (Node.ofModule body .absent [] name)) unit
      (Writer.empty name) = page (programRows name unit shown) 0 n m name := program_page written
  refine ⟨sheet (programRows name unit shown), ?_, obstacle?_programRows named inner⟩
  have file : (Node.ofModule body .absent [] name).text "filename" = name := rfl
  have kind : (Node.ofModule body .absent [] name).kind = .module := rfl
  simp only [compile, kind, file, program, page, bne_self_eq_false, Bool.false_eq_true, if_false]

end Listing

/-- Variables can always be made into a context. -/
theorem Plain.context_ok (bindings : List (String × Plain)) (s : Store) :
    ∃ r s', Plain.context bindings s = .ok (.dict r) s' := by
  have values (ps : List Plain) (s : Store) : ∃ vs s', Plain.toValues ps s = .ok vs s' := by
    cases h : Plain.toValues ps s with
    | ok vs s' => exact ⟨vs, s', rfl⟩
    | error e s' => exact (failsIn_toValues (P := fun _ => False) ps s e s' h).elim
  obtain ⟨ks, s₁, keys⟩ := values (bindings.map fun e => .text e.1) s
  obtain ⟨vs, s₂, values⟩ := values (bindings.map (·.2)) s₁
  rw [context, toValue]
  exact ⟨_, _, Step.bind_ok.2 ⟨ks, s₁, keys, Step.bind_ok.2 ⟨vs, s₂, values, rfl⟩⟩⟩

namespace Environment

/-! ## The template of a section -/

def sectionBody (b : List Char) (line : Int) : Node :=
  if b.isEmpty then Node.ofBody [] line else Node.ofText (String.ofList b) 1

def sectionTree (b : List Char) (line : Int) (name : String) : Node :=
  Node.ofModule (sectionBody b line) .absent [] name

variable {b : List Char}

theorem tree_tokens (g : Grammar) (line : Int) (name : String) :
    Parse.tree g (TokenStream.ofTokens ((if b.isEmpty then #[] else
      #[⟨.text, String.ofList b, 1⟩]).push ⟨.endOfTemplate, "", line⟩) name) =
        .ok (sectionTree b line name) := by
  unfold sectionTree sectionBody
  split
  · rfl
  · rfl

theorem apply_sectionTree (strategy : String) (line : Int) (name : String) :
    Autoescape.apply strategy (sectionTree b line name) = sectionTree b line name := by
  unfold sectionTree sectionBody
  split
  · rfl
  · rfl

theorem tree_enclosed (env : Environment) {source : String} (name : String)
    (same : source.toList = Scanner.enclosed b) (unbroken : ¬ ['\r', '\n'] <:+: b)
    (start : b.head? ≠ some '\n')
    (whole : ∀ t, Scanner.IsTag "endverbatim".toList t → ¬ t <:+: b) :
    ∃ line, env.tree source name = .ok (sectionTree b line name) := by
  obtain ⟨line, tokens⟩ := Scanner.tokenize_enclosed
    (Scanner.Operators.ofNames env.registry.grammar.vocabulary.operatorNames) same unbroken start whole
  refine ⟨line, ?_⟩
  have read : env.tokenize source name = .ok ((if b.isEmpty then #[] else
      #[⟨.text, String.ofList b, 1⟩]).push ⟨.endOfTemplate, "", line⟩) := by
    simp only [tokenize, tokens]
  rw [tree, read]
  show env.parse _ = _
  rw [parse, tree_tokens]
  refine congrArg Except.ok ?_
  split
  · rfl
  · exact apply_sectionTree _ line name

theorem showing_sectionBody (b : List Char) (line : Int) : Showing (sectionBody b line) := by
  unfold sectionBody
  split
  · exact .body (forall_mem_nil _) line
  · exact .text _ _

theorem compile_sectionTree (b : List Char) (line : Int) (name : String) (unit : String)
    (named : Listing.UnitName unit) : ∃ text,
      compile (sectionTree b line name) (fun _ => unit) = .ok text ∧
      obstacle? unit text = none := by
  refine compile_showing (showing_sectionBody b line) named ?_
  unfold sectionBody
  split
  · rfl
  · rfl

theorem display_sectionTree (b : List Char) (line : Int) (name unit : String) :
    ∃ t, Program.assemble (sectionTree b line name) unit = some t ∧
      ∀ env r, (Render.calls env t.unit).display t r [] = pure (String.ofList b) := by
  unfold sectionTree sectionBody
  split
  · next none =>
    refine ⟨_, rfl, fun env r => ?_⟩
    rw [List.isEmpty_iff.1 none]
    rfl
  · exact ⟨_, rfl, fun env r => rfl⟩

section Build

variable {env : Environment} {source name text : String} {module : Node} {t : Template}

theorem compileSource_of_tree (read : env.tree source name = .ok module)
    (compiled : compile module (fun _ => unitName name source) = .ok text) :
    env.compileSource source name = .ok text := by
  rw [compileSource, read]
  exact compiled

theorem build_of_tree (read : env.tree source name = .ok module)
    (compiled : compile module (fun _ => unitName name source) = .ok text)
    (free : obstacle? (unitName name source) text = none)
    (assembled : Program.assemble module (unitName name source) = some t) :
    env.build source name = .ok t := by
  simp only [build, read, compiled, free, assembled, bind, Except.bind]
  rfl

/-- A page of texts and prints is made as soon as it is read. -/
theorem build_showing {body : Node} (read : env.tree source name = .ok (.ofModule body .absent [] name))
    (shows : Showing body) (sound : ((lower body).emit
      (page (rowsAbove name (unitName name source)) 2 5 0 name)).failure.isNone = true)
    (assembled : Program.assemble (.ofModule body .absent [] name) (unitName name source) = some t) :
    env.build source name = .ok t := by
  obtain ⟨text, compiled, free⟩ := compile_showing shows
    ⟨⟨_, String.toList_append⟩, oneLine_unitName name source⟩ (Option.isNone_iff_eq_none.1 sound)
  exact build_of_tree read compiled free assembled

end Build

/-- **Verbatim sections are faithful.**  A text without a two-character line break that does not start
with a line break and in which the section is not closed is shown as it stands, whatever the options
and the variables are. -/
theorem render_verbatim (options : Options) (valid : options.complaints = [])
    (loader : String → Except Failure String) (host : Host) (name : String) {b : String}
    (found : loader name = .ok ("\x7b% verbatim %\x7d" ++ b ++ "\x7b% endverbatim %\x7d"))
    (unbroken : ¬ ['\r', '\n'] <:+: b.toList) (start : b.toList.head? ≠ some '\n')
    (whole : ∀ t, Scanner.IsTag "endverbatim".toList t → ¬ t <:+: b.toList) :
    ∃ env, make options [] loader host = .ok env ∧
      (∃ text, env.compileSource
        ("\x7b% verbatim %\x7d" ++ b ++ "\x7b% endverbatim %\x7d") name = .ok text) ∧
      ∀ bindings w, w.cache = [] → ∃ w', env.render name bindings w = .ok b w' := by
  have source : ("\x7b% verbatim %\x7d" ++ b ++ "\x7b% endverbatim %\x7d").toList =
      Scanner.enclosed b.toList := by
    rw [String.toList_append, String.toList_append, append_assoc]
    rfl
  generalize "\x7b% verbatim %\x7d" ++ b ++ "\x7b% endverbatim %\x7d" = page at found source ⊢
  refine ⟨ofCore options loader host, make_core options valid loader host, ?_⟩
  obtain ⟨line, read⟩ := tree_enclosed (ofCore options loader host) name source unbroken start whole
  obtain ⟨text, compiled, free⟩ := compile_sectionTree b.toList line name _
    ⟨⟨_, String.toList_append⟩, oneLine_unitName name page⟩
  obtain ⟨t, assembled, shows⟩ := display_sectionTree b.toList line name (unitName name page)
  have built := build_of_tree read compiled free assembled
  refine ⟨⟨text, compileSource_of_tree read compiled⟩, fun bindings w empty => ?_⟩
  have missing : w.cache.lookup (unitName name page) = none := by rw [empty]; rfl
  obtain ⟨r, s, made⟩ := Plain.context_ok bindings w.store
  have shown (w : World) : (Render.calls (ofCore options loader host) t.unit).display t r [] w = .ok b w := by
    rw [shows, String.ofList_toList]
    rfl
  exact ⟨_, Step.bind_ok.2 ⟨t, _,
    loadTemplate_ok.2 ⟨page, found, load_ok.2 (Or.inr ⟨missing, built, rfl⟩)⟩,
    Step.bind_ok.2 ⟨_, _, Task.ofAct_ok.2 ⟨_, made, rfl⟩, Task.finish_ok.2 (shown _)⟩⟩⟩

/-- A body full of delimiters, with quotation marks and half a tag. -/
def unclosed : String := "\x7b\x7b \"x\" \x7d\x7d \x7b# \x7b% endverbatim -"

theorem render_verbatim_unclosed :
    ∃ env, make { autoescape := "html" } []
        (fun _ => .ok ("\x7b% verbatim %\x7d" ++ unclosed ++ "\x7b% endverbatim %\x7d")) ⟨#[]⟩ = .ok env ∧
      (∃ text, env.compileSource
        ("\x7b% verbatim %\x7d" ++ unclosed ++ "\x7b% endverbatim %\x7d") "page" = .ok text) ∧
      ∃ w', env.render "page" [("x", .text "<b>")] World.start = .ok unclosed w' := by
  have whole (t : List Char) (tag : Scanner.IsTag "endverbatim".toList t) : ¬ t <:+: unclosed.toList := by
    obtain ⟨dash, lead, gap, last, -, -, -, -, rfl⟩ := tag
    intro inside
    have ends : ['%', '}'] <:+: unclosed.toList :=
      (List.IsSuffix.isInfix ⟨'{' :: '%' :: (dash ++ (lead ++ ("endverbatim".toList ++ (gap ++ last)))),
        by simp⟩).trans inside
    revert ends
    decide
  obtain ⟨env, made, compiled, rendered⟩ := render_verbatim { autoescape := "html" } (by decide)
    (fun _ => .ok ("\x7b% verbatim %\x7d" ++ unclosed ++ "\x7b% endverbatim %\x7d")) ⟨#[]⟩ "page" rfl
    (by decide) (by decide) whole
  exact ⟨env, made, compiled, rendered _ _ rfl⟩

end Environment
end Stencil
