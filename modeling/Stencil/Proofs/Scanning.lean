import Stencil.Proofs.Nesting
import Stencil.Token.Scanner

/-!
# What a scan goes through

The scanner keeps two stacks: the modes that are open and the brackets that are open, quotation
marks and interpolations among them. They are pushed and popped in different places, but not
independently of each other: `Fits` lists the pairs of stacks that can occur. A string is open
exactly when the innermost bracket is its quotation mark; an interpolation stands in a string
and has an opening of its own; ordinary brackets are open anywhere but in a string; and when no
bracket is open inside a block or a print, that is the only mode. The tokens read so far are
statements, followed inside a block or a print by its delimiter and an expression in which exactly
the brackets on the stack are open (`Begun`).

A step keeps this (`State.Formed`), and it takes at least one character off the source. So no step
looks at, or takes from, a stack that is empty. To say so, `strictStep` is the step in which
such an access is a fault, and `Reads` puts strict steps together, without a bound on
their number, up to the end of the source or a complaint. `tokenize` gives what `Reads` gives
(`reads_tokenize`), and the tokens are a well-formed template (`tokenize_wellFormed`).
-/

namespace Stencil.Scanner

open List State
open Token (Nested Opened Statements WellFormed Loose)

inductive Yields {α : Type} (P : α → Prop) : Answer α → Prop
  | ok {a} (h : P a) : Yields P (.ok a)
  | error (e : Malformed × Nat) : Yields P (.error e)

theorem Yields.mono {α : Type} {P Q : α → Prop} {x : Answer α} (hx : Yields P x)
    (h : ∀ a, P a → Q a) : Yields Q x := by
  cases hx with
  | ok ha => exact .ok (h _ ha)
  | error e => exact .error e

/-! ## Cursors that move on -/

namespace Cursor

variable {c d e : Cursor}

theorem length_advance (c : Cursor) (n : Nat) : (c.advance n).rest.length = c.rest.length - n := by
  simp [advance]

theorem length_skipSpace (c : Cursor) : c.skipSpace.rest.length ≤ c.rest.length := by
  rw [skipSpace, length_advance]
  exact Nat.sub_le _ _

theorem length_skipBreak (c : Cursor) : c.skipBreak.rest.length ≤ c.rest.length := by
  unfold skipBreak
  split
  · rw [length_advance]; exact Nat.sub_le _ _
  · exact Nat.le_refl _

/-- A place that is at least one character further, or the end. -/
def Past (c d : Cursor) : Prop := d.rest.length ≤ c.rest.length - 1

theorem past_advance {n : Nat} (hn : 0 < n) : c.Past (c.advance n) := by
  rw [Past, length_advance]
  omega

theorem Past.of_le (h : d.Past e) (hle : d.rest.length ≤ c.rest.length) : c.Past e := by
  rw [Past] at *
  omega

theorem Past.trans_le (h : c.Past d) (hle : e.rest.length ≤ d.rest.length) : c.Past e :=
  Nat.le_trans hle h

end Cursor

/-! ## The two stacks -/

/-- The pairs of open modes and open brackets that occur, with the kind of the delimiter that ends
the block or print they are in. -/
inductive Fits : Option Token.Kind → List Mode → List Bracket → Prop
  | plain : Fits none [] []
  | block : Fits (some .blockEnd) [.block] []
  | print : Fits (some .printEnd) [.print] []
  | bracket {k : Option Token.Kind} {m : Mode} {ms : List Mode} {b : Bracket} {bs : List Bracket}
    (notString : m ≠ .string) (opening : b.opening ∈ ["(", "[", "\x7b"])
    (below : Fits k (m :: ms) bs) : Fits k (m :: ms) (b :: bs)
  | string {k m ms b bs} (notString : m ≠ .string) (opening : b.opening = "\"")
    (below : Fits k (m :: ms) bs) : Fits k (.string :: m :: ms) (b :: bs)
  | interpolation {k ms b bs} (opening : b.opening = "#\x7b") (below : Fits k (.string :: ms) bs) :
    Fits k (.interpolation :: .string :: ms) (b :: bs)

theorem Fits.of_none {ms : List Mode} {bs : List Bracket} (h : Fits none ms bs) :
    ms = [] ∧ bs = [] := by
  generalize hk : (none : Option Token.Kind) = k at h
  induction h with
  | plain => exact ⟨rfl, rfl⟩
  | block | print => cases hk
  | bracket _ _ _ ih | string _ _ _ ih | interpolation _ _ ih =>
    exact absurd (ih hk).1 (cons_ne_nil _ _)

theorem Fits.of_nil {k : Option Token.Kind} {bs : List Bracket} (h : Fits k [] bs) : k = none := by
  cases h
  rfl

/-- What the brackets open in the tokens; a quotation mark is no token of its own. -/
def openings (bs : List Bracket) : List String := (bs.map (·.opening)).filter (· != "\"")

theorem openings_quote {b : Bracket} (h : b.opening = "\"") (bs : List Bracket) :
    openings (b :: bs) = openings bs := by
  simp [openings, h]

theorem openings_cons {b : Bracket} (h : b.opening ≠ "\"") (bs : List Bracket) :
    openings (b :: bs) = b.opening :: openings bs := by
  simp [openings, h]

/-- Tokens that have been read when some openings are open: statements, and, in a block or a print
that a token of the given kind will end, its delimiter and the beginning of an expression. -/
def Begun : Option Token.Kind → List String → List Token → Prop
  | none, _, ts => Statements ts
  | some k, bs, ts => ∃ base o inner, ts = base ++ o :: inner ∧ Statements base ∧
      o.kind.closer? = some k ∧ Opened bs inner

namespace Begun

variable {k : Token.Kind} {bs cs : List String} {ts : List Token} {t : Token}

theorem snoc (h : Begun (some k) bs ts)
    (step : ∀ inner, Opened bs inner → Opened cs (inner ++ [t])) :
    Begun (some k) cs (ts ++ [t]) := by
  obtain ⟨base, o, inner, rfl, hbase, ho, hinner⟩ := h
  exact ⟨base, o, inner ++ [t], by simp, hbase, ho, step inner hinner⟩

theorem snoc_closer (h : Begun (some k) [] ts) (ht : t.kind = k) : Begun none [] (ts ++ [t]) := by
  obtain ⟨base, o, inner, rfl, hbase, ho, hinner⟩ := h
  rw [append_assoc]
  exact hbase.append (.enclosed (ht ▸ ho) hinner .nil)

end Begun

/-! ## States -/

/-- The stacks fit each other, and the tokens fit the stacks. -/
structure State.Formed (k : Option Token.Kind) (s : State) : Prop where
  fits : Fits k s.modes s.brackets
  tokens : Begun k (openings s.brackets) s.tokens.toList

theorem State.toList_emit (s : State) (kind : Token.Kind) (value : List Char) (line : Nat) :
    (s.emit kind value line).tokens.toList
      = s.tokens.toList ++ [⟨kind, String.ofList value, line⟩] := by
  simp [emit]

namespace State.Formed

variable {k : Token.Kind} {s : State} {kind : Token.Kind} {value : List Char} {line : Nat}

theorem move {k : Option Token.Kind} (h : s.Formed k) (c : Cursor) :
    { s with cursor := c }.Formed k :=
  ⟨h.fits, h.tokens⟩

theorem advance {k : Option Token.Kind} (h : s.Formed k) (n : Nat) : (s.advance n).Formed k :=
  h.move _

theorem skipSpace {k : Option Token.Kind} (h : s.Formed k) : s.skipSpace.Formed k := h.move _

theorem emit_text (h : s.Formed none) (some : value ≠ []) :
    (s.emit .text value line).Formed none where
  fits := h.fits
  tokens := by
    rw [toList_emit]
    have hvalue : String.ofList value ≠ "" := by simpa using some
    exact Statements.append h.tokens (.text rfl hvalue .nil)

theorem emit_loose (h : s.Formed (some k))
    (loose : Loose ⟨kind, String.ofList value, line⟩) :
    (s.emit kind value line).Formed (some k) where
  fits := h.fits
  tokens := by
    rw [toList_emit]
    exact Begun.snoc h.tokens fun _ hinner => hinner.append (.loose loose .nil)

end State.Formed

/-- What a step leads to: stacks and tokens that fit, further on in the source. -/
structure Follows (s s' : State) : Prop where
  formed : ∃ k, s'.Formed k
  past : s.cursor.Past s'.cursor

theorem Follows.of_skipSpace {s s' : State} (h : Follows s.skipSpace s') : Follows s s' :=
  ⟨h.formed, h.past.of_le (Cursor.length_skipSpace _)⟩

/-! ## Plain text -/

section Plain

variable {s : State}

theorem readComment_follows (h : s.Formed none) : Yields (Follows s) (readComment s) := by
  unfold readComment
  split
  · exact .error _
  · next n hn =>
    have positive : 0 < n := by
      revert hn
      generalize s.cursor.rest = cs
      fun_cases commentLength? cs with
      | case1 => rintro ⟨⟩; exact Nat.zero_lt_two
      | case2 =>
        intro hn
        obtain ⟨m, _, rfl⟩ := Option.map_eq_some_iff.1 hn
        exact Nat.succ_pos m
      | case3 => intro hn; cases hn
    refine .ok ⟨⟨none, h.move _⟩, ?_⟩
    have past := Cursor.past_advance (c := s.cursor) positive
    dsimp only
    split
    · exact past.trans_le (Cursor.length_skipSpace _)
    · exact past.trans_le (Cursor.length_skipBreak _)

theorem tagLength?_pos {name cs : List Char} {n : Nat} (h : tagLength? name cs = some n) :
    0 < n := by
  unfold tagLength? at h
  split at h
  · simp only [Option.ite_none_right_eq_some] at h
    obtain ⟨_, h⟩ := h
    split at h <;> cases h <;> omega
  · cases h

theorem tag?_pos {names : List String} {cs : List Char} {tag : String} {n : Nat}
    (h : tag? names cs = some (tag, n)) : 0 < n := by
  obtain ⟨name, _, hname⟩ := exists_of_findSome?_eq_some h
  obtain ⟨m, hm, same⟩ := Option.map_eq_some_iff.1 hname
  cases same
  exact tagLength?_pos hm

theorem formed_shown (h : s.Formed none) (shown : List Char) (line : Nat) :
    (if shown.isEmpty then s else s.emit .text shown line).Formed none := by
  split
  · exact h
  · next some => exact h.emit_text (by simpa using some)

theorem cursor_shown (s : State) (shown : List Char) (line : Nat) :
    (if shown.isEmpty then s else s.emit .text shown line).cursor = s.cursor := by
  split <;> rfl

theorem readVerbatim_follows (h : s.Formed none) (tag : String) {n : Nat} (positive : 0 < n) :
    Yields (Follows s) (readVerbatim s tag n) := by
  unfold readVerbatim
  dsimp only
  split
  · exact .error _
  · refine .ok ⟨⟨none, (formed_shown (h.advance n) _ _).advance _⟩, ?_⟩
    refine (Cursor.past_advance positive).trans_le ?_
    rw [advance, Cursor.length_advance, cursor_shown]
    exact Nat.sub_le _ _

theorem readOpening_formed (h : s.Formed none) {mode : Mode} {kind k : Token.Kind}
    (closer : kind.closer? = some k) (fits : Fits (some k) [mode] []) (dashed : Bool) :
    (readOpening s mode kind dashed).Formed (some k) := by
  obtain ⟨hmodes, hbrackets⟩ := h.fits.of_none
  refine ⟨?_, s.tokens.toList, ⟨kind, "", s.cursor.line⟩, [], ?_, h.tokens, closer, ?_⟩
  · show Fits (some k) (mode :: s.modes) s.brackets
    rw [hmodes, hbrackets]
    exact fits
  · simp [readOpening, enter, emit, advance]
  · show Opened (openings s.brackets) []
    rw [hbrackets]
    exact Nested.nil

theorem readOpening_past (s : State) (mode : Mode) (kind : Token.Kind) (dashed : Bool) :
    s.cursor.Past (readOpening s mode kind dashed).cursor :=
  Cursor.past_advance (by split <;> decide)

theorem readPlain_follows (h : s.Formed none) (some : s.cursor.rest ≠ []) :
    Yields (Follows s) (readPlain s) := by
  unfold readPlain
  dsimp only
  split
  · refine .ok ⟨⟨none, (h.emit_text some).advance _⟩, ?_⟩
    exact Cursor.past_advance (length_pos_iff.2 some)
  · -- the text before the delimiter is a statement of its own, unless it is empty
    have read (shown : List Char) := (formed_shown h shown s.cursor.line).advance
      (plainText s.cursor.rest).length
    have rest {shown : List Char} {s' : State}
        (hs' : Follows ((if shown.isEmpty then s else s.emit .text shown s.cursor.line).advance
          (plainText s.cursor.rest).length) s') : Follows s s' := by
      refine ⟨hs'.formed, hs'.past.of_le ?_⟩
      rw [advance, Cursor.length_advance, cursor_shown]
      exact Nat.sub_le _ _
    split
    · exact (readComment_follows (read _)).mono fun _ => rest
    · split
      · next found => exact (readVerbatim_follows (read _) _ (tag?_pos found)).mono fun _ => rest
      · exact .ok (rest ⟨⟨_, readOpening_formed (read _) rfl .block _⟩, readOpening_past _ _ _ _⟩)
    · exact .ok (rest ⟨⟨_, readOpening_formed (read _) rfl .print _⟩, readOpening_past _ _ _ _⟩)

end Plain

/-! ## Expressions -/

section Expressions

variable {s : State} {k : Token.Kind}

/-- Some mode is open, and the innermost one is no string. -/
def State.Inner (s : State) : Prop := ∃ m ms, s.modes = m :: ms ∧ m ≠ .string

theorem State.Formed.openBracket (h : s.Formed (some k)) (inner : s.Inner) {opening : String}
    (known : opening ∈ ["(", "[", "\x7b"]) {value : List Char} {line : Nat}
    (opens : Token.opens? ⟨.punctuation, String.ofList value, line⟩ = some opening) :
    ((s.openBracket opening line).emit .punctuation value line).Formed (some k) where
  fits := by
    obtain ⟨m, ms, hm, notString⟩ := inner
    show Fits (some k) s.modes (⟨opening, line⟩ :: s.brackets)
    rw [hm]
    exact .bracket notString known (hm ▸ h.fits)
  tokens := by
    have noQuote : opening ≠ "\"" := by rintro rfl; simp at known
    show Begun (some k) (openings (⟨opening, line⟩ :: s.brackets)) _
    rw [openings_cons noQuote, toList_emit]
    exact Begun.snoc h.tokens fun _ hinner => hinner.snoc_opening opens

theorem closes_of_closing {opening : String} {c : Char} (h : closing? opening = some c)
    (line : Nat) :
    Token.closes? ⟨.punctuation, String.ofList [c], line⟩ = some opening ∧ opening ≠ "\"" ∧
      opening ≠ "#\x7b" := by
  unfold closing? at h
  split at h <;> cases h <;> exact ⟨rfl, by decide, by decide⟩

theorem State.Formed.closeBracket (h : s.Formed (some k)) (inner : s.Inner) {top : Bracket}
    {below : List Bracket} (hb : s.brackets = top :: below) {c : Char}
    (closing : closing? top.opening = some c) (line : Nat) :
    (s.closeBracket.emit .punctuation [c] line).Formed (some k) := by
  obtain ⟨m, ms, hm, notString⟩ := inner
  obtain ⟨closes, noQuote, noInterpolation⟩ := closes_of_closing closing line
  have hfits := h.fits
  have htokens := h.tokens
  rw [hm, hb] at hfits
  rw [hb, openings_cons noQuote] at htokens
  have hbelow : Fits (some k) (m :: ms) below := by
    cases hfits with
    | bracket _ _ below => exact below
    | string => exact absurd rfl notString
    | interpolation opening => exact absurd opening noInterpolation
  refine ⟨?_, ?_⟩
  · show Fits (some k) s.modes s.brackets.tail
    rw [hm, hb]
    exact hbelow
  · rw [toList_emit]
    show Begun (some k) (openings s.brackets.tail) _
    rw [hb]
    exact Begun.snoc htokens fun _ hinner => hinner.snoc_closing closes

theorem readMark_follows (h : s.Formed (some k)) (inner : s.Inner) {c : Char}
    (hc : isMark c = true) : Yields (Follows s) (readMark s c) := by
  have past := Cursor.past_advance (c := s.cursor) Nat.zero_lt_one
  unfold readMark
  dsimp only
  split
  · next opening =>
    refine .ok ⟨⟨_, (h.openBracket inner ?_ ?_).advance 1⟩, past⟩
    · simp only [Bool.or_eq_true, beq_iff_eq] at opening
      rcases opening with (rfl | rfl) | rfl <;> decide
    · simp only [Bool.or_eq_true, beq_iff_eq] at opening
      rcases opening with (rfl | rfl) | rfl <;> rfl
  · next notOpening =>
    split
    · split
      · exact .error _
      · next top below hb =>
        split
        · next closing =>
          exact .ok ⟨⟨_, (h.closeBracket inner hb (eq_of_beq closing) _).advance 1⟩, past⟩
        · exact .error _
    · next notClosing =>
      refine .ok ⟨⟨_, (h.emit_loose ?_).advance 1⟩, past⟩
      have hc : c ∈ "()[]\x7b\x7d?:.,|".toList := by simpa [isMark] using hc
      simp only [Bool.or_eq_true, beq_iff_eq, not_or] at notOpening notClosing
      simp [notOpening, notClosing] at hc
      rcases hc with rfl | rfl | rfl | rfl | rfl <;> exact ⟨rfl, rfl, rfl⟩

theorem readDoubleQuoted_follows (h : s.Formed (some k)) (inner : s.Inner) (rest : List Char) :
    Yields (Follows s) (readDoubleQuoted s rest) := by
  unfold readDoubleQuoted
  dsimp only
  split
  · exact .ok ⟨⟨_, (h.emit_loose ⟨rfl, rfl, rfl⟩).advance _⟩,
      Cursor.past_advance (Nat.succ_pos _)⟩
  · split
    · obtain ⟨m, ms, hm, notString⟩ := inner
      refine .ok ⟨⟨some k, ?_, ?_⟩, Cursor.past_advance Nat.zero_lt_one⟩
      · show Fits (some k) (.string :: s.modes) (⟨"\"", s.cursor.line⟩ :: s.brackets)
        rw [hm]
        exact .string notString rfl (hm ▸ h.fits)
      · show Begun (some k) (openings (⟨"\"", s.cursor.line⟩ :: s.brackets)) _
        rw [openings_quote rfl]
        exact h.tokens
    · exact .error _

theorem numberLength_pos {c : Char} (hc : isDigit c = true) (rest : List Char) :
    0 < numberLength (c :: rest) := by
  have whole : 0 < ((c :: rest).takeWhile isDigit).length := by
    rw [takeWhile_cons, if_pos hc]
    exact Nat.succ_pos _
  unfold numberLength
  dsimp only
  split
  · split <;> omega
  · exact whole

theorem readExpression_follows (h : s.Formed (some k)) (inner : s.Inner) (ops : Operators) :
    Yields (Follows s) (readExpression ops s) := by
  have skipped := h.skipSpace
  -- operators, names, numbers and plain strings are noted alike, and none of them is empty
  have note (kind : Token.Kind) (value : List Char) {n : Nat} (positive : 0 < n)
      (loose : Loose ⟨kind, String.ofList value, s.skipSpace.cursor.line⟩) :
      Follows s ((s.skipSpace.emit kind value s.skipSpace.cursor.line).advance n) :=
    .of_skipSpace ⟨⟨_, (skipped.emit_loose loose).advance n⟩, Cursor.past_advance positive⟩
  unfold readExpression
  dsimp only
  split
  · next ended =>
    refine .ok ⟨⟨_, skipped⟩, ?_⟩
    rw [Cursor.Past, ended]
    exact Nat.zero_le _
  · next c cs _ =>
    split
    · next found => exact .ok (note _ _ (by simpa using (Option.filter_eq_some_iff.1 found).2)
        ⟨rfl, rfl, rfl⟩)
    · split
      · exact .ok (note _ _ (Nat.succ_pos _) ⟨rfl, rfl, rfl⟩)
      · split
        · next digit =>
          have positive : 0 < ((c :: cs).take (numberLength (c :: cs))).length := by
            rw [length_take]
            exact Nat.lt_min.2 ⟨numberLength_pos digit cs, Nat.succ_pos _⟩
          exact .ok (note _ _ positive ⟨rfl, rfl, rfl⟩)
        · split
          · next mark => exact (readMark_follows skipped inner mark).mono fun _ => .of_skipSpace
          · split
            · split
              · exact .ok (note _ _ (Nat.succ_pos _) ⟨rfl, rfl, rfl⟩)
              · exact .error _
            · split
              · exact (readDoubleQuoted_follows skipped inner _).mono fun _ => .of_skipSpace
              · exact .error _

end Expressions

/-! ## The four modes -/

section Modes

variable {s : State} {k : Token.Kind} {m : Mode} {ms : List Mode}

theorem Fits.of_no_bracket (h : Fits (some k) (m :: ms) []) :
    ms = [] ∧ (m = .block ∧ k = .blockEnd ∨ m = .print ∧ k = .printEnd) := by
  cases h with
  | block => exact ⟨rfl, .inl ⟨rfl, rfl⟩⟩
  | print => exact ⟨rfl, .inr ⟨rfl, rfl⟩⟩

/-- The delimiter at which a block or a print ends leads back to plain text. -/
theorem State.Formed.leave (h : s.Formed (some k)) (hm : s.modes = m :: ms)
    (closed : s.brackets.isEmpty = true) {e : Token.Kind}
    (own : m = .block ∧ e = .blockEnd ∨ m = .print ∧ e = .printEnd) (line : Nat) :
    (s.emit e [] line).leave.Formed none := by
  have closed : s.brackets = [] := List.isEmpty_iff.1 closed
  have hfits := h.fits
  have htokens := h.tokens
  rw [hm, closed] at hfits
  rw [closed] at htokens
  obtain ⟨rfl, kind⟩ := hfits.of_no_bracket
  obtain rfl : e = k := by
    rcases own with ⟨rfl, rfl⟩ | ⟨rfl, rfl⟩ <;> simpa [eq_comm] using kind
  refine ⟨?_, ?_⟩
  · show Fits none s.modes.tail s.brackets
    rw [hm, closed]
    exact .plain
  · show Begun none (openings s.brackets) (s.emit e [] line).tokens.toList
    rw [closed, toList_emit]
    exact htokens.snoc_closer rfl

theorem readBlock_follows (h : s.Formed (some k)) (hm : s.modes = .block :: ms)
    (ops : Operators) : Yields (Follows s) (readBlock ops s) := by
  have skipped := h.skipSpace
  have hm : s.skipSpace.modes = .block :: ms := hm
  have expression := (readExpression_follows skipped ⟨_, ms, hm, by decide⟩ ops).mono
    fun _ => Follows.of_skipSpace
  unfold readBlock
  dsimp only
  split
  · next closed =>
    have ended := skipped.leave hm closed (.inl ⟨rfl, rfl⟩) s.skipSpace.cursor.line
    split
    · exact .ok (.of_skipSpace ⟨⟨none, ended.move _⟩, (Cursor.past_advance (by decide)).trans_le
        (Cursor.length_skipSpace _)⟩)
    · exact .ok (.of_skipSpace ⟨⟨none, ended.move _⟩, (Cursor.past_advance (by decide)).trans_le
        (Cursor.length_skipBreak _)⟩)
    · exact expression
  · exact expression

theorem readPrint_follows (h : s.Formed (some k)) (hm : s.modes = .print :: ms)
    (ops : Operators) : Yields (Follows s) (readPrint ops s) := by
  have skipped := h.skipSpace
  have hm : s.skipSpace.modes = .print :: ms := hm
  have expression := (readExpression_follows skipped ⟨_, ms, hm, by decide⟩ ops).mono
    fun _ => Follows.of_skipSpace
  unfold readPrint
  dsimp only
  split
  · next closed =>
    have ended := skipped.leave hm closed (.inr ⟨rfl, rfl⟩) s.skipSpace.cursor.line
    split
    · exact .ok (.of_skipSpace ⟨⟨none, ended.move _⟩, (Cursor.past_advance (by decide)).trans_le
        (Cursor.length_skipSpace _)⟩)
    · exact .ok (.of_skipSpace ⟨⟨none, ended.move _⟩, Cursor.past_advance (by decide)⟩)
    · exact expression
  · exact expression

theorem Fits.of_string {k : Option Token.Kind} {bs : List Bracket}
    (h : Fits k (.string :: ms) bs) :
    ∃ b below, bs = b :: below ∧ b.opening = "\"" ∧ Fits k ms below := by
  cases h with
  | bracket notString => exact absurd rfl notString
  | string _ opening below => exact ⟨_, _, rfl, opening, below⟩

/-- In an interpolation some bracket is open, and where that is the interpolation itself, what it
stands in is a string. -/
theorem Fits.of_interpolation {k : Option Token.Kind} {bs : List Bracket}
    (h : Fits k (.interpolation :: ms) bs) :
    ∃ b below, bs = b :: below ∧ (b.opening = "#\x7b" → Fits k ms below) := by
  cases h with
  | bracket _ opening below =>
    refine ⟨_, _, rfl, fun same => ?_⟩
    rw [same] at opening
    simp at opening
  | interpolation _ below => exact ⟨_, _, rfl, fun _ => below⟩

theorem stringPart_pos {cs : List Char} (some : cs ≠ [])
    (noInterpolation : ∀ tail, cs = '#' :: '{' :: tail → False)
    (noQuote : ∀ tail, cs = '"' :: tail → False) : 0 < (stringPart cs).length := by
  fun_cases stringPart cs with
  | case1 => exact absurd rfl some
  | case2 => exact (noQuote _ rfl).elim
  | case3 => exact Nat.zero_lt_one
  | case4 => exact Nat.succ_pos _
  | case5 => exact (noQuote _ rfl).elim
  | case6 c d rest _ _ hcd => obtain ⟨rfl, rfl⟩ := hcd; exact (noInterpolation _ rfl).elim
  | case7 => exact Nat.succ_pos _

theorem readString_follows (h : s.Formed (some k)) (hm : s.modes = .string :: ms)
    (some : s.cursor.rest ≠ []) : Yields (Follows s) (readString s) := by
  unfold readString
  dsimp only
  split
  · refine .ok ⟨⟨.some k, ?_, ?_⟩, Cursor.past_advance (by decide)⟩
    · show Fits (.some k) (.interpolation :: s.modes) (⟨"#\x7b", s.cursor.line⟩ :: s.brackets)
      rw [hm]
      exact .interpolation rfl (hm ▸ h.fits)
    · show Begun (.some k) (openings (⟨"#\x7b", s.cursor.line⟩ :: s.brackets))
        (s.emit .interpolationStart [] _).tokens.toList
      rw [openings_cons (by simp), toList_emit]
      exact Begun.snoc h.tokens fun _ hinner => hinner.snoc_opening rfl
  · obtain ⟨b, below, hb, opening, fits⟩ := Fits.of_string (hm ▸ h.fits)
    have htokens := h.tokens
    rw [hb, openings_quote opening] at htokens
    refine .ok ⟨⟨.some k, ?_, ?_⟩, Cursor.past_advance (by decide)⟩
    · show Fits (.some k) s.modes.tail s.brackets.tail
      rw [hm, hb]
      exact fits
    · show Begun (.some k) (openings s.brackets.tail) s.tokens.toList
      rw [hb]
      exact htokens
  · next noInterpolation noQuote =>
    exact .ok ⟨⟨_, (h.emit_loose ⟨rfl, rfl, rfl⟩).advance _⟩,
      Cursor.past_advance (stringPart_pos some noInterpolation noQuote)⟩

theorem readInterpolation_follows (h : s.Formed (some k)) (hm : s.modes = .interpolation :: ms)
    (ops : Operators) : Yields (Follows s) (readInterpolation ops s) := by
  have skipped := h.skipSpace
  have hm : s.skipSpace.modes = .interpolation :: ms := hm
  have expression := (readExpression_follows skipped ⟨_, ms, hm, by decide⟩ ops).mono
    fun _ => Follows.of_skipSpace
  unfold readInterpolation
  dsimp only
  split
  · next ends =>
    obtain ⟨b, below, hb, fits⟩ := Fits.of_interpolation (hm ▸ skipped.fits)
    have opening : b.opening = "#\x7b" := by
      rw [hb] at ends
      simpa using (Bool.and_eq_true_iff.1 ends).1
    have htokens := skipped.tokens
    rw [hb, openings_cons (by rw [opening]; decide), opening] at htokens
    refine .ok (.of_skipSpace ⟨⟨some k, ?_, ?_⟩, Cursor.past_advance (by decide)⟩)
    · show Fits (some k) s.skipSpace.modes.tail s.skipSpace.brackets.tail
      rw [hm, hb]
      exact fits opening
    · show Begun (some k) (openings s.skipSpace.brackets.tail)
        (s.skipSpace.emit .interpolationEnd [] _).tokens.toList
      rw [hb, toList_emit]
      exact Begun.snoc htokens fun _ hinner => hinner.snoc_closing rfl
  · exact expression

/-- **A step keeps the two stacks and the tokens in order, and moves on.** -/
theorem step_follows {k : Option Token.Kind} (h : s.Formed k) (some : s.cursor.rest ≠ [])
    (ops : Operators) : Yields (Follows s) (step ops s) := by
  unfold step
  cases hk : k with
  | none =>
    subst hk
    obtain ⟨hm, -⟩ := h.fits.of_none
    rw [hm]
    exact readPlain_follows h some
  | some k =>
    subst hk
    cases hm : s.modes with
    | nil => exact absurd (hm ▸ h.fits) (by rintro ⟨⟩)
    | cons m ms =>
      cases m with
      | block => exact readBlock_follows h hm ops
      | print => exact readPrint_follows h hm ops
      | string => exact readString_follows h hm some
      | interpolation => exact readInterpolation_follows h hm ops

end Modes

/-! ## Steps that miss nothing -/

/-- Closes the innermost mode; a fault when none is open. -/
def State.leave? (s : State) : Option State :=
  match s.modes with
  | [] => none
  | _ :: ms => some { s with modes := ms }

def State.closeBracket? (s : State) : Option State :=
  match s.brackets with
  | [] => none
  | _ :: bs => some { s with brackets := bs }

/-- Reads inside a block; nothing is answered when a stack is found empty. -/
def strictBlock (ops : Operators) (s : State) : Option (Answer State) :=
  let s := s.skipSpace
  let line := s.cursor.line
  if s.brackets.isEmpty then
    match s.cursor.rest with
    | '-' :: '%' :: '}' :: _ =>
      (((s.emit .blockEnd [] line).advance 3).skipSpace.leave?).map .ok
    | '%' :: '}' :: _ =>
      let s := (s.emit .blockEnd [] line).advance 2
      ({ s with cursor := s.cursor.skipBreak }.leave?).map .ok
    | _ => some (readExpression ops s)
  else some (readExpression ops s)

def strictPrint (ops : Operators) (s : State) : Option (Answer State) :=
  let s := s.skipSpace
  let line := s.cursor.line
  if s.brackets.isEmpty then
    match s.cursor.rest with
    | '-' :: '}' :: '}' :: _ =>
      (((s.emit .printEnd [] line).advance 3).skipSpace.leave?).map .ok
    | '}' :: '}' :: _ => (((s.emit .printEnd [] line).advance 2).leave?).map .ok
    | _ => some (readExpression ops s)
  else some (readExpression ops s)

/-- Reads inside a string that holds interpolations; nothing is answered when a stack is found
empty. -/
def strictString (s : State) : Option (Answer State) :=
  match s.cursor.rest with
  | '"' :: _ => do
    let s ← s.closeBracket?
    let s ← (s.advance 1).leave?
    return .ok s
  | _ => some (readString s)

/-- Reads inside an interpolation; nothing is answered when a stack is found empty. -/
def strictInterpolation (ops : Operators) (s : State) : Option (Answer State) := do
  let s := s.skipSpace
  let line := s.cursor.line
  let top ← s.brackets.head?
  if top.opening == "#\x7b" && s.cursor.rest.head? == some '}' then
    let s ← s.closeBracket?
    let s ← ((s.emit .interpolationEnd [] line).advance 1).leave?
    return .ok s
  else return readExpression ops s

/-- A step that answers nothing when it looks at, or takes from, a stack that is empty. Marks are
read as they are: `readMark` asks first whether a bracket is open. -/
def strictStep (ops : Operators) (s : State) : Option (Answer State) :=
  match s.modes with
  | [] => some (readPlain s)
  | .block :: _ => strictBlock ops s
  | .print :: _ => strictPrint ops s
  | .string :: _ => strictString s
  | .interpolation :: _ => strictInterpolation ops s

section Strict

variable {s : State}

theorem State.leave?_eq (some : s.modes ≠ []) : s.leave? = .some s.leave := by
  unfold leave? leave
  split
  · next none => exact absurd none some
  · next hm => rw [hm]; rfl

theorem State.closeBracket?_eq (some : s.brackets ≠ []) :
    s.closeBracket? = .some s.closeBracket := by
  unfold closeBracket? closeBracket
  split
  · next none => exact absurd none some
  · next hb => rw [hb]; rfl

theorem strictBlock_eq (some : s.modes ≠ []) (ops : Operators) :
    strictBlock ops s = .some (readBlock ops s) := by
  unfold readBlock
  dsimp only
  split
  · next closed =>
    split
    · next here =>
      simp only [strictBlock, closed, here, if_true]
      rw [leave?_eq (by exact some), Option.map_some]
    · next here =>
      simp only [strictBlock, closed, here, if_true]
      rw [leave?_eq (by exact some), Option.map_some]
    · simp only [strictBlock, closed, if_true]
  · next unclosed => exact if_neg unclosed

theorem strictPrint_eq (some : s.modes ≠ []) (ops : Operators) :
    strictPrint ops s = .some (readPrint ops s) := by
  unfold readPrint
  dsimp only
  split
  · next closed =>
    split
    · next here =>
      simp only [strictPrint, closed, here, if_true]
      rw [leave?_eq (by exact some), Option.map_some]
    · next here =>
      simp only [strictPrint, closed, here, if_true]
      rw [leave?_eq (by exact some), Option.map_some]
    · simp only [strictPrint, closed, if_true]
  · next unclosed => exact if_neg unclosed

theorem strictString_eq (modes : s.modes ≠ []) (brackets : s.brackets ≠ []) :
    strictString s = some (readString s) := by
  unfold strictString
  split
  · next tail quote =>
    have leaves : (s.closeBracket.advance 1).leave? = some (s.closeBracket.advance 1).leave :=
      leave?_eq modes
    have read : readString s = .ok (s.closeBracket.advance 1).leave := by
      simp only [readString, quote]
    rw [closeBracket?_eq brackets, read]
    show (s.closeBracket.advance 1).leave? >>= _ = _
    rw [leaves]
    rfl
  · rfl

theorem strictInterpolation_eq (modes : s.modes ≠ []) (brackets : s.brackets ≠ [])
    (ops : Operators) : strictInterpolation ops s = some (readInterpolation ops s) := by
  obtain ⟨top, below, hb⟩ := exists_cons_of_ne_nil brackets
  have hb : s.skipSpace.brackets = top :: below := hb
  have closes : s.skipSpace.closeBracket? = some s.skipSpace.closeBracket :=
    closeBracket?_eq brackets
  unfold strictInterpolation readInterpolation
  simp only [hb, closes, head?_cons, Option.any_some, Option.bind_eq_bind, Option.bind_some]
  split
  · rw [leave?_eq (by exact modes)]
    rfl
  · rfl

theorem strictStep_eq {k : Option Token.Kind} (h : s.Formed k) (ops : Operators) :
    strictStep ops s = some (step ops s) := by
  have fits := h.fits
  unfold strictStep step
  cases hm : s.modes with
  | nil => rfl
  | cons m ms =>
    have modes : s.modes ≠ [] := by rw [hm]; exact cons_ne_nil _ _
    rw [hm] at fits
    cases m with
    | block => exact strictBlock_eq modes ops
    | print => exact strictPrint_eq modes ops
    | string =>
      obtain ⟨b, below, hb, -⟩ := fits.of_string
      exact strictString_eq modes (by rw [hb]; exact cons_ne_nil _ _)
    | interpolation =>
      obtain ⟨b, below, hb, -⟩ := fits.of_interpolation
      exact strictInterpolation_eq modes (by rw [hb]; exact cons_ne_nil _ _) ops

end Strict

/-! ## Whole scans -/

/-- A scan that goes on, by steps that miss nothing, to the end of the source or to a complaint. -/
inductive Reads (ops : Operators) : State → Answer (Array Token) → Prop
  | finish {s} (ended : s.cursor.rest = []) : Reads ops s (finish s)
  | complain {s e} (more : s.cursor.rest ≠ []) (stepped : strictStep ops s = some (.error e)) :
    Reads ops s (.error e)
  | step {s s' answer} (more : s.cursor.rest ≠ []) (stepped : strictStep ops s = some (.ok s'))
    (rest : Reads ops s' answer) : Reads ops s answer

section Whole

variable {ops : Operators} {s : State} {k : Option Token.Kind}

/-- There are never more steps than characters. -/
theorem reads_scan (h : s.Formed k) {fuel : Nat} (enough : s.cursor.rest.length ≤ fuel) :
    Reads ops s (scan ops fuel s) := by
  induction fuel generalizing s k with
  | zero => exact .finish (length_eq_zero_iff.1 (Nat.le_zero.1 enough))
  | succ fuel ih =>
    rw [scan]
    split
    · next ended => exact .finish (List.isEmpty_iff.1 ended)
    · next more =>
      have more : s.cursor.rest ≠ [] := by simpa using more
      have strict := strictStep_eq h ops
      have follows := step_follows h more ops
      cases stepped : step ops s with
      | error e => exact .complain more (stepped ▸ strict)
      | ok s' =>
        rw [stepped] at follows strict
        cases follows with
        | ok follows =>
          obtain ⟨k', h'⟩ := follows.formed
          have past : s'.cursor.rest.length ≤ s.cursor.rest.length - 1 := follows.past
          exact .step more strict (ih h' (by omega))

theorem formed_start (cs : List Char) : (start cs).Formed none := ⟨.plain, .nil⟩

/-- What has been read at the end of a source is a template. -/
theorem finish_wellFormed (h : s.Formed k) :
    Yields (fun tokens => WellFormed tokens.toList) (finish s) := by
  unfold finish
  split
  · next hm =>
    obtain rfl : k = none := (hm ▸ h.fits).of_nil
    exact .ok ⟨s.tokens.toList, _, Array.toList_push, h.tokens, rfl⟩
  · exact .error _
  · exact .error _
  · split
    · exact .error _
    · exact .error _

theorem Reads.wellFormed {answer : Answer (Array Token)} (reads : Reads ops s answer)
    (h : s.Formed k) : Yields (fun tokens => WellFormed tokens.toList) answer := by
  induction reads generalizing k with
  | finish _ => exact finish_wellFormed h
  | complain _ _ => exact .error _
  | step more stepped _ ih =>
    have follows := step_follows h more ops
    rw [Option.some.inj ((strictStep_eq h ops).symm.trans stepped)] at follows
    cases follows with
    | ok follows =>
      obtain ⟨_, h'⟩ := follows.formed
      exact ih h'

theorem reads_tokenize (ops : Operators) (source : String) :
    Reads ops (start (normalize source.toList)) (tokenize ops source) :=
  reads_scan (formed_start _) (Nat.le_refl _)

theorem tokenize_formed {source : String} {tokens : Array Token}
    (found : tokenize ops source = .ok tokens) : WellFormed tokens.toList := by
  have formed := (reads_tokenize ops source).wellFormed (formed_start _)
  rw [found] at formed
  cases formed with
  | ok formed => exact formed

end Whole

/-- **Tokens form a template.**  For all operators and every source, a scan comes to an end, by
steps that never look at or take from a stack that is empty; and the tokens it gives are statements
whose expressions are well nested, followed by the only end token. -/
theorem tokenize_wellFormed (names : List String) (source : String) :
    Reads (.ofNames names) (start (normalize source.toList)) (tokenize (.ofNames names) source) ∧
    ∀ tokens, tokenize (.ofNames names) source = .ok tokens →
      ∃ statements final, tokens.toList = statements ++ [final] ∧ Statements statements ∧
        final.kind = .endOfTemplate ∧ ∀ t ∈ statements, t.kind ≠ .endOfTemplate := by
  refine ⟨reads_tokenize _ _, fun tokens found => ?_⟩
  obtain ⟨statements, final, same, hstatements, hfinal⟩ := tokenize_formed found
  exact ⟨statements, final, same, hstatements, hfinal, hstatements.ne_end⟩

/-- An array inside an interpolation inside a string, and white space that is taken away. -/
def interpolatedSource : String := "a\x7b\x7b \"b#\x7b [c = 1] \x7d\" -\x7d\x7d\n"

theorem tokenize_wellFormed_interpolation :
    ∃ tokens, tokenize (.ofNames ["="]) interpolatedSource = .ok tokens ∧ tokens.size = 12 ∧
      ∃ statements final, tokens.toList = statements ++ [final] ∧ Statements statements ∧
        final.kind = .endOfTemplate ∧ ∀ t ∈ statements, t.kind ≠ .endOfTemplate := by
  have ops : Operators.ofNames ["="] = ["="] := mergeSort_singleton _
  have size : ((tokenize ["="] interpolatedSource).toOption.map Array.size) = some 12 := by
    decide
  rw [← ops] at size
  cases found : tokenize (.ofNames ["="]) interpolatedSource with
  | error e => rw [found] at size; cases size
  | ok tokens =>
    rw [found] at size
    exact ⟨tokens, rfl, Option.some.inj size, (tokenize_wellFormed _ _).2 tokens found⟩

end Stencil.Scanner
