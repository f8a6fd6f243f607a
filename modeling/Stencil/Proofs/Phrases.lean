import Stencil.Proofs.Lexemes

/-!
# Phrases are read back

A scan of a written phrase is followed step by step. Between two steps all that matters is the rest
of the source, the two stacks and the tokens without their lines (`State.view`), and `Goes v w` says
that every state that looks like `v` gets to one that looks like `w`. Inside delimiters the cursor
always stands on the space before the next token, so the character before a token is a space, and
an operator stands there exactly when its words do.
-/

namespace Stencil.Scanner

open List
open Source (Word Phrase Tail Pair Segment Lead Literal escape unlessEmpty dash)

/-! ## Runs -/

structure View where
  rest : List Char
  modes : List Mode
  openings : List String
  contents : List (Token.Kind × String)

namespace State

variable (s : State)

def view : View :=
  ⟨s.cursor.rest, s.modes, s.brackets.map (·.opening), s.tokens.toList.map Token.content⟩

@[simp] theorem view_emit (kind : Token.Kind) (value : List Char) (line : Nat) :
    (s.emit kind value line).view =
      { s.view with contents := s.view.contents ++ [(kind, String.ofList value)] } := by
  simp [view, emit, Token.content]

@[simp] theorem view_advance (n : Nat) :
    (s.advance n).view = { s.view with rest := s.view.rest.drop n } := rfl

theorem view_skipBreak : { s with cursor := s.cursor.skipBreak }.view =
    { s.view with rest := Lead.newline.trim s.view.rest } := by
  unfold view Cursor.skipBreak Lead.trim
  split <;> simp_all [Cursor.advance]

@[simp] theorem view_skipSpace :
    s.skipSpace.view = { s.view with rest := s.view.rest.dropWhile isSpace } := by
  have skipped : s.cursor.rest.drop (s.cursor.rest.takeWhile isSpace).length =
      s.cursor.rest.dropWhile isSpace := by
    nth_rewrite 2 [← takeWhile_append_dropWhile (p := isSpace) (l := s.cursor.rest)]
    exact drop_left
  rw [view, skipSpace, Cursor.skipSpace, Cursor.advance]
  simp only [skipped]
  rfl

@[simp] theorem view_enter (m : Mode) :
    (s.enter m).view = { s.view with modes := m :: s.view.modes } := rfl

@[simp] theorem view_leave : s.leave.view = { s.view with modes := s.view.modes.tail } := rfl

@[simp] theorem view_openBracket (opening : String) (line : Nat) :
    (s.openBracket opening line).view =
      { s.view with openings := opening :: s.view.openings } := rfl

@[simp] theorem view_closeBracket :
    s.closeBracket.view = { s.view with openings := s.view.openings.tail } := by
  simp [view, closeBracket]

end State

/-- Steps that lead from one state to another, each of them taking something off the source. -/
inductive Passes : State → State → Prop
  | refl (s : State) : Passes s s
  | step {s t u : State} (stepped : step Language.scanned s = .ok t)
    (past : t.cursor.rest.length < s.cursor.rest.length) (rest : Passes t u) : Passes s u

theorem Passes.trans {s t u : State} (h : Passes s t) (h' : Passes t u) : Passes s u := by
  induction h with
  | refl => exact h'
  | step stepped past _ ih => exact .step stepped past (ih h')

theorem Passes.scan_eq {s t : State} (h : Passes s t) (ended : t.cursor.rest = []) {fuel : Nat}
    (enough : s.cursor.rest.length ≤ fuel) : scan Language.scanned fuel s = finish t := by
  induction h generalizing fuel with
  | refl s =>
    cases fuel with
    | zero => rfl
    | succ fuel => rw [scan, if_pos (by simp [ended])]
  | @step s t u stepped past _ ih =>
    cases fuel with
    | zero => omega
    | succ fuel =>
      have more : s.cursor.rest.isEmpty = false := by
        cases hs : s.cursor.rest with
        | nil => simp [hs] at past
        | cons => rfl
      rw [scan, more, if_neg (by decide), stepped]
      exact ih ended (by omega)

/-- Whatever looks like `v` gets to something that looks like `w`. -/
def Goes (v w : View) : Prop := ∀ s : State, s.view = v → ∃ t, t.view = w ∧ Passes s t

theorem Goes.trans {u v w : View} (h : Goes u v) (h' : Goes v w) : Goes u w := by
  intro s hs
  obtain ⟨t, ht, passes⟩ := h s hs
  obtain ⟨u, hu, passes'⟩ := h' t ht
  exact ⟨u, hu, passes.trans passes'⟩

theorem Goes.refl (v : View) : Goes v v := fun s hs => ⟨s, hs, .refl s⟩

theorem goes_of_step {v w : View}
    (stepped : ∀ s : State, s.view = v → ∃ t, step Language.scanned s = .ok t ∧ t.view = w)
    (past : w.rest.length < v.rest.length) : Goes v w := by
  intro s hs
  obtain ⟨t, stepped, ht⟩ := stepped s hs
  refine ⟨t, ht, .step stepped ?_ (.refl t)⟩
  rw [← hs, ← ht] at past
  exact past

/-! ## Words -/

section Words

variable {s : State} {r : List Char}

/-- What may stand behind a word and a space, for the word to be read as it is. -/
structure Separate (w : List Char) (r : List Char) : Prop where
  solid : ∀ c ∈ r.head?, isWordSpace c = false
  apart : ∀ op ∈ Language.scanned, ∀ v, Text.words op = [w, v] → v.isPrefixOf r = true →
    endsWord (r.drop v.length) = false

structure State.OnToken (s : State) (cs : List Char) : Prop where
  before : s.cursor.before = some ' '
  rest : s.cursor.rest = cs
  solid : ∀ c ∈ cs.head?, isSpace c = false

variable {cs : List Char} {c : Char}

theorem State.OnToken.cursor_eq (h : s.OnToken cs) : s.cursor = ⟨some ' ', cs, s.cursor.line⟩ := by
  rw [← h.before, ← h.rest]

theorem State.OnToken.skipSpace_eq (h : s.OnToken cs) : s.skipSpace = s := by
  have none : cs.takeWhile isSpace = [] := by
    cases cs with
    | nil => rfl
    | cons c cs => rw [takeWhile_cons, h.solid c rfl]; rfl
  unfold State.skipSpace Cursor.skipSpace
  rw [h.rest, none]
  simp [Cursor.advance, breaks]

theorem readExpression_operator (h : s.OnToken cs) (more : cs ≠ []) {op : String} {n : Nat}
    (found : Language.scanned.match? s.cursor = some (op, n)) (hn : 0 < n) :
    readExpression Language.scanned s =
      .ok ((s.emit .operator op.toList s.cursor.line).advance n) := by
  obtain ⟨c, cs, rfl⟩ := exists_cons_of_ne_nil more
  unfold readExpression
  simp only [h.skipSpace_eq, h.rest, found, Option.filter_some, hn, decide_true, if_true]

theorem readExpression_name (h : s.OnToken (c :: cs))
    (none : Language.scanned.match? s.cursor = none) (hc : isNameStart c = true) :
    readExpression Language.scanned s = .ok ((s.emit .name (c :: cs.takeWhile isNameChar)
      s.cursor.line).advance (cs.takeWhile isNameChar).length.succ) := by
  unfold readExpression
  simp only [h.skipSpace_eq, h.rest, none, Option.filter_none, hc, if_true]
  rfl

theorem isNameStart_of_isDigit (hc : isDigit c = true) : isNameStart c = false := by
  have bounds : 48 ≤ c.toNat ∧ c.toNat ≤ 57 := by
    simpa [isDigit, Char.le_def, UInt32.le_iff_toNat_le] using hc
  rw [Bool.eq_false_iff]
  intro start
  simp only [isNameStart, isAlpha, Bool.or_eq_true, Bool.and_eq_true, decide_eq_true_eq, beq_iff_eq,
    Char.le_def, UInt32.le_iff_toNat_le] at start
  rcases start with ((⟨lower, -⟩ | ⟨lower, -⟩) | rfl) | lower
  · exact absurd (Nat.le_trans lower bounds.2) (by decide)
  · exact absurd (Nat.le_trans lower bounds.2) (by decide)
  · exact absurd bounds.2 (by decide)
  · omega

theorem readExpression_number (h : s.OnToken (c :: cs))
    (none : Language.scanned.match? s.cursor = none) (hc : isDigit c = true) :
    readExpression Language.scanned s = .ok ((s.emit .number
      ((c :: cs).take (numberLength (c :: cs))) s.cursor.line).advance
        ((c :: cs).take (numberLength (c :: cs))).length) := by
  unfold readExpression
  simp only [h.skipSpace_eq, h.rest, none, Option.filter_none, isNameStart_of_isDigit hc, hc,
    if_true, Bool.false_eq_true, if_false]

theorem isMark_cases (hc : isMark c = true) :
    isNameStart c = false ∧ isDigit c = false ∧ isSpace c = false ∧ isWordSpace c = false := by
  have marks : ("()[]\x7b\x7d?:.,|".toList.all fun c =>
      !isNameStart c && !isDigit c && !isSpace c && !isWordSpace c) = true := by decide
  simpa [and_assoc] using all_eq_true.1 marks c (contains_iff_mem.1 hc)

theorem readExpression_mark (h : s.OnToken (c :: ' ' :: cs)) (sep : Separate [c] cs)
    (hc : isMark c = true) : readExpression Language.scanned s = readMark s c := by
  obtain ⟨noName, noDigit, -, solid⟩ := isMark_cases hc
  have none : Language.scanned.match? s.cursor = none := by
    rw [h.cursor_eq, ← match?_mark hc]
    exact match?_append (ℓ := [c]) (by simpa using solid) sep.solid sep.apart
  unfold readExpression
  simp only [h.skipSpace_eq, h.rest, none, Option.filter_none, noName, noDigit, hc, if_true,
    Bool.false_eq_true, if_false]

theorem loose_mark (mark : Source.Mark) : isMark mark.1 = true ∧
    (mark.1 == '(' || mark.1 == '[' || mark.1 == '{') = false ∧
    (mark.1 == ')' || mark.1 == ']' || mark.1 == '}') = false := by
  obtain ⟨c, hc⟩ := mark
  revert c
  simp [isMark]

theorem readExpression_quote (h : s.OnToken (c :: cs)) (hc : c = '\'' ∨ c = '"') :
    readExpression Language.scanned s = if c = '\'' then
        (stringBody? '\'' false cs).elim (.error (.unclosed "'", s.cursor.line)) fun body =>
          .ok ((s.emit .string (unescape body) s.cursor.line).advance (body.length + 2))
      else readDoubleQuoted s cs := by
  have none : Language.scanned.match? s.cursor = none := by
    rw [h.cursor_eq]
    exact match?_value (by rcases hc with rfl | rfl <;> decide) cs
  unfold readExpression
  simp only [h.skipSpace_eq, h.rest, none, Option.filter_none]
  rcases hc with rfl | rfl
  · cases stringBody? '\'' false cs <;> rfl
  · rfl

/-- The text of a token begins: no white space, and nothing that could be a closing delimiter. -/
def Starts (cs : List Char) : Prop :=
  ∃ c t, cs = c :: t ∧ isSpace c = false ∧ c ≠ '}' ∧ (c = '-' ∨ c = '%' → t.head? = some ' ')

namespace Starts

variable {cs t : List Char} {c : Char}

theorem curly (h : Starts cs) : cs ≠ '}' :: t := by
  obtain ⟨d, u, rfl, -, other, -⟩ := h
  exact fun same => other (List.cons.inj same).1

theorem dashed (h : Starts cs) (here : cs = '-' :: c :: t) : c = ' ' := by
  obtain ⟨d, u, same, -, -, spaced⟩ := h
  cases same.symm.trans here
  simpa using spaced (.inl rfl)

theorem percent (h : Starts cs) (here : cs = '%' :: c :: t) : c = ' ' := by
  obtain ⟨d, u, same, -, -, spaced⟩ := h
  cases same.symm.trans here
  simpa using spaced (.inr rfl)

theorem solid (h : Starts cs) : ∀ c ∈ cs.head?, isSpace c = false := by
  obtain ⟨d, u, rfl, solid, -⟩ := h
  simpa using solid

end Starts

/-- Whether white space or a closing delimiter may start with a character. -/
def startsGap (c : Char) : Bool := isSpace c || c == '}' || c == '-' || c == '%'

theorem starts_of_first (h : startsGap c = false) (t : List Char) : Starts (c :: t) := by
  simp only [startsGap, Bool.or_eq_false_iff, beq_eq_false_iff_ne] at h
  obtain ⟨⟨⟨solid, curly⟩, dashed⟩, percent⟩ := h
  refine ⟨c, t, rfl, solid, curly, ?_⟩
  rintro (same | same)
  · exact absurd same dashed
  · exact absurd same percent

theorem startsGap_of_class {p : Char → Bool}
    (other : ([' ', '\t', '\n', '\r', '\x0b', '\x00', '}', '-', '%'].any p) = false)
    (hc : p c = true) : startsGap c = false := by
  rw [Bool.eq_false_iff]
  intro h
  simp only [startsGap, isSpace, Bool.or_eq_true, beq_iff_eq] at h
  rw [any_eq_false] at other
  refine other c ?_ hc
  simpa [or_assoc] using h

theorem starts_word (w : Word) (r : List Char) : Starts (w.write ++ ' ' :: r) := by
  cases w with
  | name value =>
    obtain ⟨name, hname, -⟩ := value
    obtain ⟨c, cs, same, hc, -⟩ := cons_of_isName hname
    show Starts (name.toList ++ _)
    rw [same]
    exact starts_of_first (startsGap_of_class (by decide) hc) _
  | number value =>
    obtain ⟨c, t, first, hc⟩ := cons_of_numeral value
    show Starts (value.write ++ _)
    rw [first]
    exact starts_of_first (startsGap_of_class (by decide) hc) _
  | operator value =>
    obtain ⟨op, hop⟩ := value
    have firsts : ∀ op ∈ Language.scanned, (op.toList.head?.any fun c => !isSpace c && c != '}' &&
        (op.toList.length == 1 || c != '-' && c != '%')) = true := by decide
    obtain ⟨c, hc, first⟩ := (Option.any_eq_true _ _).1 (firsts op hop)
    obtain ⟨t, ht⟩ := head?_eq_some_iff.1 hc
    show Starts (op.toList ++ _)
    rw [ht] at first ⊢
    simp only [Bool.and_eq_true, Bool.or_eq_true, Bool.not_eq_true', bne_iff_ne, beq_iff_eq,
      length_cons, Nat.add_eq_right, length_eq_zero_iff] at first
    refine ⟨c, t ++ ' ' :: r, rfl, first.1.1, first.1.2, fun closing => ?_⟩
    rcases first.2 with rfl | ⟨dashed, percent⟩
    · rfl
    · exact absurd closing (not_or.2 ⟨dashed, percent⟩)
  | mark value =>
    obtain ⟨c, hc⟩ := value
    have hc : ['?', ':', '.', ',', '|'].contains c = true := contains_iff_mem.2 hc
    exact starts_of_first (startsGap_of_class (by decide) hc) _
  | single | double => exact starts_of_first (by decide) _

theorem unescape_write (value : Literal) : unescape value.write = value.1.toList :=
  unescape_escape (by decide) (by simp [escaped]) _

theorem readExpression_word (w : Word) (h : s.OnToken (w.write ++ ' ' :: r))
    (sep : Separate w.write r) :
    readExpression Language.scanned s = .ok ((s.emit w.content.1 w.content.2.toList
      s.cursor.line).advance w.write.length) := by
  cases w with
  | name value =>
    obtain ⟨name, hname, free⟩ := value
    have letters := forall_isNameChar hname
    -- the blank after the name ends it, and what follows makes no operator of it
    have none : Language.scanned.match? s.cursor = none := by
      rw [h.cursor_eq, ← match?_name hname free]
      exact match?_append (fun c hc => isWordSpace_of_isNameChar (letters c hc)) sep.solid sep.apart
    obtain ⟨c, cs, same, hc, hcs⟩ := cons_of_isName hname
    have whole : (cs ++ ' ' :: r).takeWhile isNameChar = cs := by
      rw [takeWhile_append_of_pos hcs]
      simp [show isNameChar ' ' = false by decide]
    change s.OnToken (name.toList ++ ' ' :: r) at h
    show _ = Except.ok ((s.emit .name name.toList s.cursor.line).advance name.toList.length)
    rw [same] at h ⊢
    rw [cons_append] at h
    rw [readExpression_name h none hc, whole]
    rfl
  | number value =>
    obtain ⟨c, t, first, hc⟩ := cons_of_numeral value
    have text : (c :: (t ++ ' ' :: r)).take (numberLength (c :: (t ++ ' ' :: r))) = value.write := by
      rw [← cons_append, ← first, numberLength_write, take_left]
    change s.OnToken (value.write ++ ' ' :: r) at h
    rw [first, cons_append] at h
    have none : Language.scanned.match? s.cursor = none := by
      rw [h.cursor_eq]
      exact match?_value (by simp [startsValue, hc]) _
    rw [readExpression_number h none hc, text]
    simp [Word.content, Word.write]
  | operator value =>
    obtain ⟨op, hop⟩ := value
    have found : Language.scanned.match? s.cursor = some (op, op.toList.length) := by
      rw [h.cursor_eq]
      exact match?_operator hop sep.solid sep.apart
    have some : ∀ op ∈ Language.scanned, 0 < op.toList.length := by decide
    exact readExpression_operator h (by simp) found (some op hop)
  | mark value =>
    obtain ⟨c, hc⟩ := value
    obtain ⟨mark, noOpening, noClosing⟩ := loose_mark ⟨c, hc⟩
    rw [readExpression_mark h sep mark]
    simp only [readMark, noOpening, noClosing, Bool.false_eq_true, if_false]
    simp [Word.content, Word.write]
  | single value =>
    have body : stringBody? '\'' false (escape ['\\', '\''] value.1.toList ++ '\'' :: ' ' :: r) =
        some (escape ['\\', '\''] value.1.toList) := by
      rw [stringBody?_escape (by decide) (by decide) (by decide) _ (by simp)]
      simp [stringBody?]
    have text : unescape (escape ['\\', '\''] value.1.toList) = value.1.toList :=
      unescape_escape (by decide) (by simp [escaped]) _
    have h : s.OnToken ('\'' :: (escape ['\\', '\''] value.1.toList ++ '\'' :: ' ' :: r)) := by
      simpa [Word.write] using h
    rw [readExpression_quote h (.inl rfl), if_pos rfl, body]
    simp [text, Word.content, Word.write]
  | double value =>
    have body : stringBody? '"' true (value.write ++ '"' :: ' ' :: r) = some value.write := by
      rw [Literal.write, stringBody?_escape (by decide) (by decide) (by decide) _ (by simp)]
      simp [stringBody?]
    have h : s.OnToken ('"' :: (value.write ++ '"' :: ' ' :: r)) := by
      simpa [Word.write] using h
    rw [readExpression_quote h (.inr rfl), if_neg (by decide), readDoubleQuoted, body]
    simp [unescape_write, Word.content, Word.write]

end Words

/-! ## Phrases -/

section Phrases

variable {s : State} {m : Mode} {ms : List Mode} {bs : List String} {cs r : List Char}
  {out : List (Token.Kind × String)}

theorem onToken_skipSpace (hs : s.cursor.rest = ' ' :: cs) (solid : ∀ c ∈ cs.head?, isSpace c = false) :
    s.skipSpace.OnToken cs := by
  have gap : (' ' :: cs).takeWhile isSpace = [' '] := by
    cases cs with
    | nil => rfl
    | cons c cs =>
      rw [takeWhile_cons_of_pos (by decide), takeWhile_cons_of_neg (by simp [solid c rfl])]
  refine ⟨?_, ?_, solid⟩
  · simp [State.skipSpace, Cursor.skipSpace, Cursor.advance, hs, gap]
  · simp [State.skipSpace, Cursor.skipSpace, Cursor.advance, hs, gap]

/-- Where no closing delimiter stands, or a bracket is open, the next token of an expression is read. -/
theorem step_inner (hs : s.view = ⟨' ' :: cs, m :: ms, bs, out⟩) (notString : m ≠ .string)
    (solid : ∀ c ∈ cs.head?, isSpace c = false)
    (inside : Starts cs ∨ ∃ b ∈ bs.head?, b ≠ "#\x7b") :
    step Language.scanned s = readExpression Language.scanned s.skipSpace ∧
      s.skipSpace.OnToken cs ∧ s.skipSpace.view = ⟨cs, m :: ms, bs, out⟩ := by
  have hrest : s.cursor.rest = ' ' :: cs := congrArg View.rest hs
  have hmodes : s.modes = m :: ms := congrArg View.modes hs
  have hbrackets : s.brackets.map (·.opening) = bs := congrArg View.openings hs
  have on := onToken_skipSpace hrest solid
  have view : s.skipSpace.view = { s.view with rest := cs } := by
    rw [← on.rest]
    rfl
  rw [hs] at view
  refine ⟨?_, on, view⟩
  -- with no bracket open, nothing that starts a token is taken for a delimiter
  have starts : s.skipSpace.brackets.isEmpty = true → Starts s.skipSpace.cursor.rest := by
    intro closed
    rw [on.rest]
    refine inside.resolve_right ?_
    rintro ⟨b, hb, -⟩
    have none : s.brackets = [] := List.isEmpty_iff.1 closed
    rw [← hbrackets, none] at hb
    cases hb
  unfold step
  rw [hmodes]
  cases m with
  | string => exact absurd rfl notString
  | block =>
    show readBlock Language.scanned s = _
    unfold readBlock
    dsimp only
    split
    · next closed =>
      split
      · next here => exact absurd ((starts closed).dashed here) (by decide)
      · next here => exact absurd ((starts closed).percent here) (by decide)
      · rfl
    · rfl
  | print =>
    show readPrint Language.scanned s = _
    unfold readPrint
    dsimp only
    split
    · next closed =>
      split
      · next here => exact absurd ((starts closed).dashed here) (by decide)
      · next here => exact absurd here (starts closed).curly
      · rfl
    · rfl
  | interpolation =>
    show readInterpolation Language.scanned s = _
    unfold readInterpolation
    dsimp only
    refine if_neg fun closes => ?_
    obtain ⟨opened, curly⟩ := Bool.and_eq_true_iff.1 closes
    obtain ⟨t, here⟩ := head?_eq_some_iff.1 (eq_of_beq curly)
    rcases inside with starts | ⟨b, hb, other⟩
    · exact starts.curly (on.rest ▸ here)
    · rw [← hbrackets, head?_map] at hb
      obtain ⟨top, htop, rfl⟩ := Option.map_eq_some_iff.1 hb
      obtain ⟨top', htop', hopening⟩ := (Option.any_eq_true _ _).1 opened
      cases htop.symm.trans htop'
      exact other (eq_of_beq hopening)

theorem goes_word (notString : m ≠ .string) (w : Word) (sep : Separate w.write r) :
    Goes ⟨' ' :: (w.write ++ ' ' :: r), m :: ms, bs, out⟩
      ⟨' ' :: r, m :: ms, bs, out ++ [w.content]⟩ := by
  have starts := starts_word w r
  refine goes_of_step (fun s hs => ?_) ?_
  · obtain ⟨stepped, on, view⟩ := step_inner hs notString starts.solid (.inl starts)
    refine ⟨_, stepped.trans (readExpression_word w on sep), ?_⟩
    simp [view]
  · simp

theorem isWordSpace_of_isSpace {c : Char} (hc : isSpace c = false) : isWordSpace c = false :=
  (Bool.or_eq_false_iff.1 hc).1

variable {op : String} {w v : List Char} {p : Phrase}

theorem two_words (h : op ∈ Language.scanned) (two : Text.words op = [w, v]) :
    w ∈ ["starts", "ends", "is", "not"].map String.toList ∧ v ∈ ["with", "not", "in"].map
      String.toList := by
  rcases words_scanned h with one | ⟨u, hu, v', hv, same, -⟩
  · cases one.symm.trans two
  · cases same.symm.trans two
    exact ⟨mem_map_of_mem hu, mem_map_of_mem hv⟩

theorem separate_mark (c : Char) (solid : ∀ c ∈ r.head?, isSpace c = false) : Separate [c] r where
  solid d hd := isWordSpace_of_isSpace (solid d hd)
  apart op hop v two := by
    have long : ∀ w ∈ ["starts", "ends", "is", "not"].map String.toList, 1 < w.length := by
      decide
    exact absurd (long _ (two_words hop two).1) (by simp)

theorem goes_opening (notString : m ≠ .string) (pair : Pair)
    (solid : ∀ c ∈ r.head?, isSpace c = false) :
    Goes ⟨' ' :: pair.opening :: ' ' :: r, m :: ms, bs, out⟩
      ⟨' ' :: r, m :: ms, String.singleton pair.opening :: bs,
        out ++ [(.punctuation, String.singleton pair.opening)]⟩ := by
  have mark : isMark pair.opening = true := by cases pair <;> rfl
  have starts : Starts (pair.opening :: ' ' :: r) :=
    starts_of_first (by cases pair <;> rfl) _
  refine goes_of_step (fun s hs => ?_) (by simp)
  obtain ⟨stepped, on, view⟩ := step_inner hs notString starts.solid (.inl starts)
  rw [readExpression_mark on (separate_mark _ solid) mark] at stepped
  have read : readMark s.skipSpace pair.opening = .ok (((s.skipSpace.openBracket
      (String.singleton pair.opening) s.skipSpace.cursor.line).emit .punctuation [pair.opening]
        s.skipSpace.cursor.line).advance 1) := by
    cases pair <;> rfl
  refine ⟨_, stepped.trans read, ?_⟩
  simp [view]

theorem goes_closing (notString : m ≠ .string) (pair : Pair)
    (solid : ∀ c ∈ r.head?, isSpace c = false) :
    Goes ⟨' ' :: pair.closing :: ' ' :: r, m :: ms, String.singleton pair.opening :: bs, out⟩
      ⟨' ' :: r, m :: ms, bs, out ++ [(.punctuation, String.singleton pair.closing)]⟩ := by
  have mark : isMark pair.closing = true := by cases pair <;> rfl
  refine goes_of_step (fun s hs => ?_) (by simp)
  obtain ⟨stepped, on, view⟩ := step_inner hs notString (by cases pair <;> simp [Pair.closing, isSpace])
    (.inr ⟨_, rfl, by cases pair <;> decide⟩)
  rw [readExpression_mark on (separate_mark _ solid) mark] at stepped
  obtain ⟨top, below, htop, hopening, -⟩ := map_eq_cons_iff.1 (congrArg View.openings view)
  have read : readMark s.skipSpace pair.closing = .ok ((s.skipSpace.closeBracket.emit .punctuation
      [pair.closing] s.skipSpace.cursor.line).advance 1) := by
    unfold readMark
    rw [htop]
    simp only [hopening]
    cases pair <;> rfl
  refine ⟨_, stepped.trans read, ?_⟩
  simp [view]

/-! ### Strings with interpolations -/

theorem goes_quote (notString : m ≠ .string) (part : Literal) :
    Goes ⟨' ' :: '"' :: (part.write ++ '#' :: '{' :: r), m :: ms, bs, out⟩
      ⟨part.write ++ '#' :: '{' :: r, .string :: m :: ms, "\"" :: bs, out⟩ := by
  have starts : Starts ('"' :: (part.write ++ '#' :: '{' :: r)) :=
    starts_of_first (by decide) _
  refine goes_of_step (fun s hs => ?_) (by simp)
  obtain ⟨stepped, on, view⟩ := step_inner hs notString starts.solid (.inl starts)
  have body : stringBody? '"' true (part.write ++ '#' :: '{' :: r) = none := by
    rw [Literal.write, stringBody?_escape (by decide) (by decide) (by decide) _ (by simp)]
    simp [stringBody?]
  rw [readExpression_quote on (.inr rfl), if_neg (by decide), readDoubleQuoted, body] at stepped
  simp only [hasInterpolation_append, if_true] at stepped
  refine ⟨_, stepped, ?_⟩
  simp [view]

theorem step_string {s : State} (hs : s.view = ⟨cs, .string :: ms, bs, out⟩) :
    step Language.scanned s = readString s := by
  unfold step
  rw [show s.modes = .string :: ms from congrArg View.modes hs]

theorem goes_part (part : Literal) (more : r ≠ []) (ends : stringPart r = []) :
    Goes ⟨part.write ++ r, .string :: ms, bs, out⟩
      ⟨r, .string :: ms, bs, out ++ unlessEmpty .string part.1.toList⟩ := by
  have text : stringPart (part.write ++ r) = part.write :=
    stringPart_escape (by decide) (by decide) (by decide) _ ends more
  cases hpart : part.1.toList with
  | nil =>
    rw [Literal.write, hpart]
    simpa [escape, unlessEmpty] using Goes.refl _
  | cons c cs =>
    -- it is not taken for the end or an interpolation: those characters would be escaped
    have first : ∃ d t, part.write ++ r = d :: t ∧ d ≠ '#' ∧ d ≠ '"' := by
      rw [Literal.write, hpart, escape_cons]
      split
      · exact ⟨_, _, rfl, by decide, by decide⟩
      · next plain =>
        simp only [mem_cons, not_mem_nil, or_false, not_or] at plain
        exact ⟨_, _, rfl, plain.2.2, plain.2.1⟩
    obtain ⟨d, t, first, noHash, noQuote⟩ := first
    refine goes_of_step (fun s hs => ?_) ?_
    · have hrest : s.cursor.rest = part.write ++ r := congrArg View.rest hs
      rw [step_string hs]
      unfold readString
      split
      · next here => exact absurd (List.cons.inj (first.symm.trans (hrest.symm.trans here))).1 noHash
      · next here => exact absurd (List.cons.inj (first.symm.trans (hrest.symm.trans here))).1 noQuote
      · refine ⟨_, rfl, ?_⟩
        simp [hs, hrest, text, unescape_write, hpart, unlessEmpty]
    · have longer : 0 < part.write.length := by
        rw [Literal.write, hpart, escape_cons]
        split <;> exact Nat.succ_pos _
      simpa using longer

theorem goes_interpolation :
    Goes ⟨'#' :: '{' :: r, .string :: ms, bs, out⟩
      ⟨r, .interpolation :: .string :: ms, "#\x7b" :: bs, out ++ [(.interpolationStart, "")]⟩ := by
  refine goes_of_step (fun s hs => ?_) (by simp)
  have hrest : s.cursor.rest = '#' :: '{' :: r := congrArg View.rest hs
  rw [step_string hs, readString]
  simp only [hrest]
  refine ⟨_, rfl, ?_⟩
  simp [hs]

theorem goes_interpolationEnd :
    Goes ⟨' ' :: '}' :: r, .interpolation :: ms, "#\x7b" :: bs, out⟩
      ⟨r, ms, bs, out ++ [(.interpolationEnd, "")]⟩ := by
  refine goes_of_step (fun s hs => ?_) (by simp)
  have hrest : s.cursor.rest = ' ' :: '}' :: r := congrArg View.rest hs
  have on := onToken_skipSpace hrest (by simp [isSpace])
  have view : s.skipSpace.view = { s.view with rest := '}' :: r } := by
    rw [← on.rest]
    rfl
  rw [hs] at view
  obtain ⟨top, below, htop, hopening, -⟩ := map_eq_cons_iff.1 (congrArg View.openings view)
  have stepped : step Language.scanned s = readInterpolation Language.scanned s := by
    unfold step
    rw [show s.modes = .interpolation :: ms from congrArg View.modes hs]
  rw [stepped, readInterpolation]
  simp only [htop, on.rest, head?_cons, Option.any_some, hopening, beq_self_eq_true,
    Bool.and_self, if_true]
  refine ⟨_, rfl, ?_⟩
  simp [view]

theorem goes_unquote :
    Goes ⟨'"' :: r, .string :: ms, "\"" :: bs, out⟩ ⟨r, ms, bs, out⟩ := by
  refine goes_of_step (fun s hs => ?_) (by simp)
  have hrest : s.cursor.rest = '"' :: r := congrArg View.rest hs
  rw [step_string hs, readString]
  simp only [hrest]
  refine ⟨_, rfl, ?_⟩
  simp [hs]

/-! ### Whole phrases -/

/-- What may stand behind a phrase: a closing bracket or a closing delimiter. -/
def Closes (r : List Char) : Prop := ∃ c t, r = c :: t ∧ c ∈ [')', ']', '}', '-', '%']

theorem Closes.first (h : Closes r) : ∃ c t, r = c :: t ∧ isSpace c = false ∧ isAlpha c = false := by
  obtain ⟨c, t, rfl, hc⟩ := h
  have closers : ([')', ']', '}', '-', '%'].all fun c => !isSpace c && !isAlpha c) = true := by
    decide
  have hc := all_eq_true.1 closers c hc
  simp only [Bool.and_eq_true, Bool.not_eq_true'] at hc
  exact ⟨c, t, rfl, hc.1, hc.2⟩

/-- A phrase and what stands behind it: the first word, or a character that is neither white space nor
a letter. -/
theorem Phrase.first_cases (p : Phrase) (closes : Closes r) :
    (∃ w rest, p = .word w rest) ∨
      p.first? = none ∧ ∃ c t, p.write ++ r = c :: t ∧ isSpace c = false ∧ isAlpha c = false := by
  cases p with
  | nil => exact .inr ⟨rfl, closes.first⟩
  | word w rest => exact .inl ⟨w, rest, rfl⟩
  | group pair inner rest =>
    rw [Phrase.write]
    exact .inr ⟨rfl, pair.opening, _, rfl, by cases pair <;> decide, by cases pair <;> decide⟩
  | string part inner tail rest =>
    rw [Phrase.write]
    exact .inr ⟨rfl, '"', _, rfl, by decide, by decide⟩

theorem starts_phrase (some : p ≠ .nil) (r : List Char) : Starts (p.write ++ r) := by
  cases p with
  | nil => exact absurd rfl some
  | word w rest =>
    rw [Phrase.write, append_assoc]
    exact starts_word w _
  | group pair inner rest =>
    rw [Phrase.write]
    exact starts_of_first (by cases pair <;> decide) _
  | string part inner tail rest =>
    rw [Phrase.write]
    exact starts_of_first (by decide) _

theorem solid_phrase (p : Phrase) (closes : Closes r) :
    ∀ c ∈ (p.write ++ r).head?, isSpace c = false := by
  rcases Phrase.first_cases p closes with ⟨w, rest, rfl⟩ | ⟨-, c, t, first, hc, -⟩
  · rw [Phrase.write, append_assoc]
    exact (starts_word w _).solid
  · simpa [first] using hc

theorem isAlpha_of_isNameStart {c : Char} (hc : isNameStart c = false) : isAlpha c = false :=
  (Bool.or_eq_false_iff.1 (Bool.or_eq_false_iff.1 hc).1).1

theorem not_isPrefixOf_of_not_isAlpha (hop : op ∈ Language.scanned) (two : Text.words op = [w, v])
    {c : Char} (hc : isAlpha c = false) (t : List Char) : v.isPrefixOf (c :: t) = false := by
  have letters : ∀ v ∈ ["with", "not", "in"].map String.toList, v.head?.any isAlpha = true := by
    decide
  obtain ⟨d, hd, alpha⟩ := (Option.any_eq_true _ _).1 (letters v (two_words hop two).2)
  obtain ⟨u, rfl⟩ := head?_eq_some_iff.1 hd
  have other : (d == c) = false := by
    refine beq_false_of_ne fun same => ?_
    simp [same, hc] at alpha
  simp [isPrefixOf_cons_cons, other]

theorem Word.first_cases (w : Word) :
    (∃ value, w = .name value) ∨ (∃ value, w = .operator value) ∨
      ∃ c t, w.write = c :: t ∧ isAlpha c = false := by
  cases w with
  | name value => exact .inl ⟨value, rfl⟩
  | operator value => exact .inr (.inl ⟨value, rfl⟩)
  | number value =>
    obtain ⟨c, t, first, hc⟩ := cons_of_numeral value
    exact .inr (.inr ⟨c, t, first, isAlpha_of_isNameStart (isNameStart_of_isDigit hc)⟩)
  | mark value =>
    obtain ⟨noName, -⟩ := isMark_cases (loose_mark value).1
    exact .inr (.inr ⟨_, _, rfl, isAlpha_of_isNameStart noName⟩)
  | single | double => exact .inr (.inr ⟨_, _, rfl, by decide⟩)

/-- Where the second word of an operator ends inside a word, it is the first part of that word. -/
theorem takeWhile_of_endsWord (hop : op ∈ Language.scanned) {t : List Char}
    (two : Text.words op = [w, v]) (w' : Word) (ht : w'.write = v ++ t) (ends : endsWord t = true) :
    w'.write.takeWhile (· ≠ ' ') = v := by
  have solid := (letters_scanned hop).1 v (by simp [two])
  have found : v.isPrefixOf w'.write = true := by
    rw [ht]
    exact List.isPrefixOf_iff_prefix.2 (prefix_append v t)
  rcases Word.first_cases w' with ⟨value, rfl⟩ | ⟨value, rfl⟩ | ⟨c, u, first, letter⟩
  · cases t with
    | nil =>
      rw [ht, append_nil]
      refine takeWhile_eq_self_iff.2 fun c hc => ?_
      have hc := all_eq_true.1 solid c hc
      refine decide_eq_true ?_
      rintro rfl
      cases hc
    | cons d t =>
      change value.1.toList = v ++ d :: t at ht
      have hd := forall_isNameChar value.2.1 d (by simp [ht])
      rw [endsWord_of_isNameChar hd] at ends
      cases ends
  · have parts : ∀ op ∈ Language.scanned, ∀ v ∈ ["with", "not", "in"].map String.toList,
        v.isPrefixOf op.toList = true → endsWord (op.toList.drop v.length) = true →
          op.toList.takeWhile (· ≠ ' ') = v := by decide
    change value.1.toList = v ++ t at ht
    refine parts value.1 value.2 v (two_words hop two).2 found ?_
    rw [ht, drop_left]
    exact ends
  · rw [first, not_isPrefixOf_of_not_isAlpha hop two letter] at found
    cases found

theorem apart_word {w w' : Word} (h : w.joins w' = false) (hop : op ∈ Language.scanned)
    (two : Text.words op = [w.write, v]) (found : v.isPrefixOf (w'.write ++ ' ' :: r) = true) :
    endsWord ((w'.write ++ ' ' :: r).drop v.length) = false := by
  rw [isPrefixOf_append_space ((letters_scanned hop).1 v (by simp [two]))] at found
  obtain ⟨t, ht⟩ := List.isPrefixOf_iff_prefix.1 found
  rw [← ht, append_assoc, drop_left, endsWord_append_space, Bool.eq_false_iff]
  intro ends
  have joined := any_eq_false.1 h op hop
  rw [takeWhile_of_endsWord hop two w' ht.symm ends, two] at joined
  exact joined (beq_self_eq_true _)

theorem separate_phrase {w : Word} (h : p.first?.any w.joins = false) (closes : Closes r) :
    Separate w.write (p.write ++ r) where
  solid c hc := isWordSpace_of_isSpace (solid_phrase p closes c hc)
  apart op hop v two found := by
    rcases Phrase.first_cases p closes with ⟨w', rest, rfl⟩ | ⟨-, c, t, first, -, letter⟩
    · rw [Phrase.write, append_assoc, cons_append] at found ⊢
      exact apart_word h hop two found
    · rw [first] at found
      rw [not_isPrefixOf_of_not_isAlpha hop two letter] at found
      cases found

mutual

/-- **A phrase is read as it was written**, whatever it stands in. -/
theorem goes_phrase (p : Phrase) {m : Mode} {ms : List Mode} {bs : List String} {r : List Char}
    {out : List (Token.Kind × String)} (apart : p.isApart = true) (notString : m ≠ .string)
    (closes : Closes r) :
    Goes ⟨' ' :: (p.write ++ r), m :: ms, bs, out⟩ ⟨' ' :: r, m :: ms, bs, out ++ p.contents⟩ := by
  cases p with
  | nil =>
    rw [Phrase.contents, append_nil]
    exact .refl _
  | word w rest =>
    rw [Phrase.isApart, Bool.and_eq_true, Bool.not_eq_true'] at apart
    rw [Phrase.write, Phrase.contents, append_assoc, cons_append, append_cons out]
    exact (goes_word notString w (separate_phrase apart.1 closes)).trans
      (goes_phrase rest apart.2 notString closes)
  | group pair inner rest =>
    rw [Phrase.isApart, Bool.and_eq_true] at apart
    -- the phrase inside is ended by the bracket, whatever comes after that
    have closing : Closes (pair.closing :: ' ' :: (rest.write ++ r)) :=
      ⟨_, _, rfl, by cases pair <;> decide⟩
    have contents : out ++ (Phrase.group pair inner rest).contents =
        out ++ [(.punctuation, String.singleton pair.opening)] ++ inner.contents ++
          [(.punctuation, String.singleton pair.closing)] ++ rest.contents := by
      simp [Phrase.contents]
    simp only [contents, Phrase.write, cons_append, append_assoc inner.write]
    exact (goes_opening notString pair (solid_phrase inner closing)).trans <|
      (goes_phrase inner apart.1 notString closing).trans <|
      (goes_closing notString pair (solid_phrase rest closes)).trans <|
      goes_phrase rest apart.2 notString closes
  | string part inner tail rest =>
    rw [Phrase.isApart, Bool.and_eq_true, Bool.and_eq_true] at apart
    have contents : out ++ (Phrase.string part inner tail rest).contents =
        out ++ unlessEmpty .string part.1.toList ++ [(.interpolationStart, "")] ++ inner.contents ++
          [(.interpolationEnd, "")] ++ tail.contents ++ rest.contents := by
      simp [Phrase.contents]
    simp only [contents, Phrase.write, cons_append, append_assoc part.write,
      append_assoc inner.write, append_assoc tail.write]
    exact (goes_quote notString part).trans <| (goes_part part (by simp) (by simp [stringPart])).trans <|
      goes_interpolation.trans <|
      (goes_phrase inner apart.1.1 (by decide) ⟨_, _, rfl, by decide⟩).trans <|
      goes_interpolationEnd.trans <| (goes_tail tail apart.1.2 notString).trans <|
      goes_phrase rest apart.2 notString closes

theorem goes_tail (t : Tail) {m : Mode} {ms : List Mode} {bs : List String} {r : List Char}
    {out : List (Token.Kind × String)} (apart : t.isApart = true) (notString : m ≠ .string) :
    Goes ⟨t.write ++ r, .string :: m :: ms, "\"" :: bs, out⟩
      ⟨r, m :: ms, bs, out ++ t.contents⟩ := by
  cases t with
  | done part =>
    simp only [Tail.write, Tail.contents, append_assoc, singleton_append]
    have ends : stringPart ('"' :: r) = [] := by cases r <;> simp [stringPart]
    exact (goes_part part (by simp) ends).trans goes_unquote
  | more part inner tail =>
    rw [Tail.isApart, Bool.and_eq_true] at apart
    have contents : out ++ (Tail.more part inner tail).contents =
        out ++ unlessEmpty .string part.1.toList ++ [(.interpolationStart, "")] ++ inner.contents ++
          [(.interpolationEnd, "")] ++ tail.contents := by
      simp [Tail.contents]
    simp only [contents, Tail.write, cons_append, append_assoc part.write,
      append_assoc inner.write]
    exact (goes_part part (by simp) (by simp [stringPart])).trans <| goes_interpolation.trans <|
      (goes_phrase inner apart.1 (by decide) ⟨_, _, rfl, by decide⟩).trans <|
      goes_interpolationEnd.trans <| goes_tail tail apart.2 notString

end

end Phrases

/-! ## Line breaks -/

section Breaks

variable {r : List Char}

theorem normalize_literal (value : Literal) : normalize value.write = value.write :=
  normalize_escape (by decide) value.2

theorem normalize_word (w : Word) : normalize w.write = w.write := by
  cases w with
  | name value =>
    refine normalize_of_not_mem fun h => ?_
    exact absurd (forall_isNameChar value.2.1 _ h) (by decide)
  | number value =>
    refine normalize_of_not_mem fun h => ?_
    rw [Word.write, Source.Numeral.write, mem_append] at h
    rcases h with whole | fraction
    · exact absurd (value.digits _ (mem_append_left _ whole)) (by decide)
    · split at fraction
      · cases fraction
      · have fraction := (mem_cons.1 fraction).resolve_left (by decide)
        exact absurd (value.digits _ (mem_append_right _ fraction)) (by decide)
  | operator value =>
    have plain : ∀ op ∈ Language.scanned, '\r' ∉ op.toList := by decide
    exact normalize_of_not_mem (plain value.1 value.2)
  | mark value => simp [Word.write, normalize]
  | single value =>
    rw [Word.write, cons_append, normalize_cons (by simp), normalize_append (by simp),
      normalize_escape (by decide) value.2]
    rfl
  | double value =>
    rw [Word.write, cons_append, normalize_cons (by simp), normalize_append (by simp),
      normalize_literal]
    rfl

mutual

theorem normalize_phrase (p : Phrase) : normalize p.write = p.write := by
  cases p with
  | nil => rfl
  | word w rest =>
    rw [Phrase.write, normalize_append (by simp), normalize_word, normalize_cons (by simp),
      normalize_phrase rest]
  | group pair inner rest =>
    have opening : pair.opening ≠ '\r' := by cases pair <;> decide
    have closing : pair.closing ≠ '\r' ∧ pair.closing ≠ '\n' := by cases pair <;> decide
    rw [Phrase.write, normalize_cons (by simp [opening]), normalize_cons (by simp),
      normalize_append (by simp [closing]), normalize_phrase inner, normalize_cons (by simp [closing]),
      normalize_cons (by simp), normalize_phrase rest]
  | string part inner tail rest =>
    rw [Phrase.write, normalize_cons (by simp), normalize_append (by simp), normalize_literal,
      normalize_cons (by simp), normalize_cons (by simp), normalize_cons (by simp),
      normalize_append (by simp), normalize_phrase inner, normalize_cons (by simp),
      normalize_append (by simp), normalize_tail tail, normalize_cons (by simp),
      normalize_phrase rest]

theorem normalize_tail (t : Tail) : normalize t.write = t.write := by
  cases t with
  | done part =>
    rw [Tail.write, normalize_append (by simp), normalize_literal]
    rfl
  | more part inner tail =>
    rw [Tail.write, normalize_append (by simp), normalize_literal, normalize_cons (by simp),
      normalize_cons (by simp), normalize_cons (by simp), normalize_append (by simp),
      normalize_phrase inner, normalize_cons (by simp), normalize_tail tail]

end

end Breaks

end Stencil.Scanner
