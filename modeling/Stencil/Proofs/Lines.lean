import Stencil.Proofs.Scanning

/-!
# Lines of tokens

A source has one line more than it has line breaks. The scanner counts lines as it goes, so what
has been counted and the breaks that are left always make up the same number. Every token starts at
a place of its own, further on than the token before it, and carries the line of that place
(`Scanner.tokenize_exact`); everything the scanner complains about lies on a line of the source
(`Scanner.tokenize_within`). What is called a name is one, so it stands on one line.
-/

namespace Stencil

open List

/-- A line of a source that has `last` lines. -/
def OnLine (last : Nat) (line : Int) : Prop := 1 ≤ line ∧ line ≤ last

theorem onLine_one {last : Nat} (some : 1 ≤ last) : OnLine last 1 := ⟨Int.le_refl 1, by omega⟩

def OneLine (s : String) : Prop := '\n' ∉ s.toList

namespace Scanner

theorem oneLine_of_isName {name : String} (h : isName name = true) : OneLine name := by
  intro hc
  unfold isName at h
  split at h
  · next none =>
    rw [none] at hc
    exact absurd hc not_mem_nil
  · next c rest some =>
    rw [some] at hc
    rw [Bool.and_eq_true, all_eq_true] at h
    rcases mem_cons.1 hc with rfl | hc
    · exact absurd h.1 (by decide)
    · exact absurd (h.2 _ hc) (by decide)

/-- What a step answers has a property, or it complains about a line of the source. -/
inductive Within (last : Nat) {α : Type} (P : α → Prop) : Answer α → Prop
  | ok {a : α} (h : P a) : Within last P (.ok a)
  | error (reason : Malformed) {line : Nat} (h : OnLine last line) :
    Within last P (.error (reason, line))

/-! ## The cursor -/

/-- A place of a source: the lines before it and the breaks after it make up those of the source. -/
structure Cursor.Counts (cs : List Char) (c : Cursor) : Prop where
  rest : c.rest <:+ cs
  line : c.line + breaks c.rest = 1 + breaks cs

namespace Cursor.Counts

variable {cs : List Char} {c : Cursor}

theorem line_eq (h : c.Counts cs) :
    c.line = 1 + breaks (cs.take (cs.length - c.rest.length)) := by
  obtain ⟨passed, rfl⟩ := h.rest
  have := h.line
  rw [length_append, Nat.add_sub_cancel, take_left]
  simp only [breaks, count_append] at *
  omega

theorem onLine (h : c.Counts cs) : OnLine (1 + breaks cs) c.line := by
  have := h.line
  have := h.line_eq
  exact ⟨by omega, by omega⟩

theorem advance (h : c.Counts cs) (n : Nat) : (c.advance n).Counts cs where
  rest := (drop_suffix n _).trans h.rest
  line := by
    have split : breaks (c.rest.take n) + breaks (c.rest.drop n) = breaks c.rest := by
      unfold breaks
      rw [← count_append, take_append_drop]
    have := h.line
    change c.line + breaks (c.rest.take n) + breaks (c.rest.drop n) = _
    omega

theorem skipSpace (h : c.Counts cs) : c.skipSpace.Counts cs := h.advance _

theorem skipBreak (h : c.Counts cs) : c.skipBreak.Counts cs := by
  unfold Cursor.skipBreak
  split
  · exact h.advance 1
  · exact h

end Cursor.Counts

/-! ## Lexemes -/

def Lexeme (kind : Token.Kind) (value cs : List Char) : Prop :=
  match kind with
  | .endOfTemplate => cs = []
  | .text | .number | .punctuation => value ≠ [] ∧ value <+: cs
  | .name => isName (String.ofList value) = true ∧ value <+: cs
  | .blockStart => "\x7b%".toList <+: cs
  | .printStart => "\x7b\x7b".toList <+: cs
  | .blockEnd => "%\x7d".toList <+: cs ∨ "-%\x7d".toList <+: cs
  | .printEnd => "\x7d\x7d".toList <+: cs ∨ "-\x7d\x7d".toList <+: cs
  | .interpolationStart => "#\x7b".toList <+: cs
  | .interpolationEnd => "\x7d".toList <+: cs
  | .string =>
    -- a whole string, or the part of one before or after an interpolation
    (∃ quote ∈ "'\"".toList, ∃ body, quote :: body ++ [quote] <+: cs ∧ value = unescape body) ∨
      stringPart cs ≠ [] ∧ value = unescape (stringPart cs)
  | .operator => ∃ n, 0 < n ∧ matchWords? false (Text.words (String.ofList value)) cs = some n
  | .other _ => False

theorem plainText_leads (cs : List Char) : plainText cs <+: cs := by
  fun_induction plainText cs with
  | case1 => exact prefix_refl _
  | case2 => exact List.nil_prefix
  | case3 c rest _ ih => exact (prefix_cons_inj c).2 ih

theorem startsDelimiter_drop {cs : List Char} (more : (plainText cs).length ≠ cs.length) :
    startsDelimiter (cs.drop (plainText cs).length) = true := by
  fun_induction plainText cs with
  | case1 => exact absurd rfl more
  | case2 c rest starts => exact starts
  | case3 c rest _ ih => exact ih fun same => more (congrArg (· + 1) same)

theorem startsDelimiter_cases {cs : List Char} (starts : startsDelimiter cs = true) :
    ∃ c tail, cs = '{' :: c :: tail ∧ (c = '{' ∨ c = '%' ∨ c = '#') := by
  unfold startsDelimiter at starts
  split at starts
  · next c tail => exact ⟨c, tail, rfl, by simpa [or_assoc] using starts⟩
  · cases starts

theorem trimEnd_leads (p : Char → Bool) (cs : List Char) : Text.trimEnd p cs <+: cs :=
  reverse_suffix.1 (by simpa [Text.trimEnd] using dropWhile_suffix p)

theorem sectionBody?_leads {name cs body tail : List Char}
    (found : sectionBody? name cs = some (body, tail)) : body <+: cs := by
  fun_induction sectionBody? name cs generalizing body with
  | case1 => cases found
  | case2 => cases found; exact List.nil_prefix
  | case3 c rest _ ih =>
    obtain ⟨⟨inner, _⟩, found, same⟩ := Option.map_eq_some_iff.1 found
    cases same
    exact (prefix_cons_inj c).2 (ih found)

theorem stringBody?_leads {quote : Char} {interpolated : Bool} {cs body : List Char}
    (found : stringBody? quote interpolated cs = some body) : body ++ [quote] <+: cs := by
  fun_induction stringBody? quote interpolated cs generalizing body with
  | case1 => cases found
  | case2 c is => cases found; rw [is.2]; exact prefix_refl _
  | case3 => cases found
  | case4 d rest ih =>
    obtain ⟨inner, hinner, rfl⟩ := Option.map_eq_some_iff.1 found
    exact (prefix_cons_inj _).2 ((prefix_cons_inj _).2 (ih hinner))
  | case5 d rest _ => cases found; exact ⟨_, rfl⟩
  | case6 => cases found
  | case7 c d rest _ _ _ ih =>
    obtain ⟨inner, hinner, rfl⟩ := Option.map_eq_some_iff.1 found
    exact (prefix_cons_inj c).2 (ih hinner)

theorem Operators.match?_words {ops : Operators} {c : Cursor} {op : String} {n : Nat}
    (found : ops.match? c = some (op, n)) : matchWords? false (Text.words op) c.rest = some n := by
  obtain ⟨op', _, hop⟩ := exists_of_findSome?_eq_some found
  obtain ⟨m, hm, same⟩ := Option.map_eq_some_iff.1 hop
  cases same
  unfold operatorLength? at hm
  dsimp only at hm
  split at hm
  · cases hm
  · split at hm
    · cases hm
    · next found =>
      split at hm
      · cases hm
      · cases hm; exact found

/-! ## States -/

/-- All tokens are on lines of the source, and those that are called names are names. -/
structure TokensWithin (last : Nat) (tokens : Array Token) : Prop where
  onLine : ∀ t ∈ tokens, OnLine last t.line
  named : ∀ t ∈ tokens, t.kind = .name → isName t.value = true

theorem TokensWithin.push {last : Nat} {tokens : Array Token} (h : TokensWithin last tokens)
    {t : Token} (onLine : OnLine last t.line) (named : t.kind = .name → isName t.value = true) :
    TokensWithin last (tokens.push t) where
  onLine u hu := by
    rcases Array.mem_push.1 hu with there | rfl
    · exact h.onLine u there
    · exact onLine
  named u hu := by
    rcases Array.mem_push.1 hu with there | rfl
    · exact h.named u there
    · exact named

theorem tokensWithin_empty (last : Nat) : TokensWithin last #[] :=
  ⟨fun _ h => absurd h (Array.not_mem_empty _), fun _ h => absurd h (Array.not_mem_empty _)⟩

/-- Tokens with the places where they start, one after the other: each carries the line of its place,
and what it stands for is there. -/
structure Placed (cs : List Char) (places : List (Nat × Token)) (ts : List Token) : Prop where
  tokens : places.map (·.2) = ts
  increasing : places.Pairwise (·.1 < ·.1)
  inside : ∀ p ∈ places, p.1 ≤ cs.length
  line : ∀ p ∈ places, p.2.line = ↑(1 + breaks (cs.take p.1))
  starts : ∀ p ∈ places, Lexeme p.2.kind p.2.value.toList (cs.drop p.1)

theorem Placed.snoc {cs : List Char} {places : List (Nat × Token)} {ts : List Token}
    (h : Placed cs places ts) {c : Cursor} (place : c.Counts cs)
    (later : ∀ p ∈ places, p.1 + c.rest.length < cs.length) {t : Token} (line : t.line = c.line)
    (starts : Lexeme t.kind t.value.toList c.rest) :
    Placed cs (places ++ [(cs.length - c.rest.length, t)]) (ts ++ [t]) where
  tokens := by rw [map_append, h.tokens]; rfl
  increasing := by
    refine pairwise_append.2 ⟨h.increasing, pairwise_singleton _ _, fun p hp q hq => ?_⟩
    have := later p hp
    rw [mem_singleton.1 hq]
    omega
  inside := forall_mem_append.2 ⟨h.inside, forall_mem_singleton.2 (Nat.sub_le _ _)⟩
  line := forall_mem_append.2
    ⟨h.line, forall_mem_singleton.2 (line.trans (congrArg Nat.cast place.line_eq))⟩
  starts := forall_mem_append.2 ⟨h.starts, forall_mem_singleton.2
    ((suffix_iff_eq_drop.1 place.rest) ▸ starts)⟩

/-- Tokens that start where more than `left` characters are left. -/
def Noted (cs : List Char) (left : Nat) (ts : List Token) : Prop :=
  ∃ places, Placed cs places ts ∧ ∀ p ∈ places, p.1 + left < cs.length

/-- Everything a scan has noted lies on a line of the source, and its tokens are where they start. -/
structure State.Lined (cs : List Char) (s : State) : Prop where
  cursor : s.cursor.Counts cs
  /-- In a block or a print the line of its delimiter is known. -/
  opened : s.modes ≠ [] → OnLine (1 + breaks cs) s.openLine
  brackets : ∀ b ∈ s.brackets, OnLine (1 + breaks cs) b.line
  tokens : Noted cs s.cursor.rest.length s.tokens.toList

namespace State.Lined

variable {cs : List Char} {s : State} {line : Nat}

theorem move (h : s.Lined cs) {c : Cursor} (hc : c.Counts cs)
    (later : c.rest.length ≤ s.cursor.rest.length) : { s with cursor := c }.Lined cs where
  cursor := hc
  opened := h.opened
  brackets := h.brackets
  tokens := h.tokens.imp fun _ hp =>
    ⟨hp.1, fun p there => Nat.lt_of_le_of_lt (Nat.add_le_add_left later _) (hp.2 p there)⟩

theorem advance (h : s.Lined cs) (n : Nat) : (s.advance n).Lined cs :=
  h.move (h.cursor.advance n) (by rw [Cursor.length_advance]; exact Nat.sub_le _ _)

theorem skipSpace (h : s.Lined cs) : s.skipSpace.Lined cs :=
  h.move h.cursor.skipSpace (Cursor.length_skipSpace _)

theorem skipBreak (h : s.Lined cs) : { s with cursor := s.cursor.skipBreak }.Lined cs :=
  h.move h.cursor.skipBreak (Cursor.length_skipBreak _)

theorem noted (h : s.Lined cs) {kind : Token.Kind} {value : List Char}
    (starts : Lexeme kind value s.cursor.rest) (more : s.cursor.rest ≠ []) {n : Nat}
    (positive : 0 < n) :
    Noted cs (s.cursor.advance n).rest.length
      (s.emit kind value s.cursor.line).tokens.toList := by
  rw [State.toList_emit]
  obtain ⟨places, placed, later⟩ := h.tokens
  have := length_pos_iff.2 more
  have := h.cursor.rest.length_le
  refine ⟨_, placed.snoc h.cursor later rfl (by simpa using starts), ?_⟩
  rw [Cursor.length_advance]
  refine forall_mem_append.2 ⟨fun p hp => ?_, forall_mem_singleton.2 ?_⟩
  · have := later p hp
    omega
  · dsimp only
    omega

theorem take (h : s.Lined cs) (kind : Token.Kind) {value : List Char}
    (starts : Lexeme kind value s.cursor.rest) (more : s.cursor.rest ≠ []) {n : Nat}
    (positive : 0 < n) : ((s.emit kind value s.cursor.line).advance n).Lined cs where
  cursor := h.cursor.advance n
  opened := h.opened
  brackets := h.brackets
  tokens := h.noted starts more positive

theorem enter (h : s.Lined cs) (inside : s.modes ≠ []) (m : Mode) : (s.enter m).Lined cs where
  cursor := h.cursor
  opened _ := h.opened inside
  brackets := h.brackets
  tokens := h.tokens

theorem leave (h : s.Lined cs) : s.leave.Lined cs where
  cursor := h.cursor
  opened still := h.opened fun none => still (by unfold State.leave; rw [none]; rfl)
  brackets := h.brackets
  tokens := h.tokens

theorem openBracket (h : s.Lined cs) (opening : String) (hline : OnLine (1 + breaks cs) line) :
    (s.openBracket opening line).Lined cs where
  cursor := h.cursor
  opened := h.opened
  brackets := forall_mem_cons.2 ⟨hline, h.brackets⟩
  tokens := h.tokens

theorem closeBracket (h : s.Lined cs) : s.closeBracket.Lined cs where
  cursor := h.cursor
  opened := h.opened
  brackets b hb := h.brackets b (mem_of_mem_tail hb)
  tokens := h.tokens

theorem onLine (h : s.Lined cs) : OnLine (1 + breaks cs) s.cursor.line := h.cursor.onLine

theorem shown (h : s.Lined cs) {text : List Char} (leads : text <+: s.cursor.rest) {n : Nat}
    (long : text.length ≤ n) :
    ((if text.isEmpty then s else s.emit .text text s.cursor.line).advance n).Lined cs := by
  split
  · exact h.advance n
  · next some =>
    have some : text ≠ [] := by simpa using some
    have positive := length_pos_iff.2 some
    exact h.take .text ⟨some, leads⟩ (fun none => some (prefix_nil.1 (none ▸ leads))) (by omega)

end State.Lined

/-! ## Steps -/

variable {cs : List Char} {s : State} (h : s.Lined cs)

include h

theorem readComment_lined : Within (1 + breaks cs) (State.Lined cs) (readComment s) := by
  unfold readComment
  split
  · exact .error _ h.onLine
  · next n _ =>
    refine .ok ?_
    split
    · exact (h.advance n).skipSpace
    · exact (h.advance n).skipBreak

theorem readVerbatim_lined (tag : String) (n : Nat) :
    Within (1 + breaks cs) (State.Lined cs) (readVerbatim s tag n) := by
  unfold readVerbatim
  dsimp only
  split
  · exact .error _ h.onLine
  · next body tail found =>
    have leads := sectionBody?_leads found
    refine .ok ((h.advance n).shown ?_ ?_)
    · split
      · exact (trimEnd_leads _ _).trans leads
      · exact leads
    · split
      · exact Nat.le_add_right_of_le (trimEnd_leads _ _).length_le
      · exact Nat.le_add_right _ _

theorem readOpening_lined (mode : Mode) {kind : Token.Kind} (starts : Lexeme kind [] s.cursor.rest)
    (more : s.cursor.rest ≠ []) (dashed : Bool) : (readOpening s mode kind dashed).Lined cs where
  cursor := h.cursor.advance _
  opened _ := h.onLine
  brackets := h.brackets
  tokens := h.noted starts more (by split <;> decide)

theorem readPlain_lined (more : s.cursor.rest ≠ []) :
    Within (1 + breaks cs) (State.Lined cs) (readPlain s) := by
  unfold readPlain
  dsimp only
  split
  · exact .ok (h.take .text ⟨more, prefix_refl _⟩ more (length_pos_iff.2 more))
  · next short =>
    have delimited := startsDelimiter_drop (by simpa using short)
    have leads := plainText_leads s.cursor.rest
    -- the text before a delimiter is read first, trimmed or not; the delimiter is read from there
    generalize hread : State.advance _ (plainText s.cursor.rest).length = read
    have hrest : read.cursor.rest = s.cursor.rest.drop (plainText s.cursor.rest).length := by
      rw [← hread, State.advance, cursor_shown]
      rfl
    have h : read.Lined cs := by
      rw [← hread]
      refine h.shown ?_ ?_
      · split
        · exact (trimEnd_leads _ _).trans leads
        · exact leads
      · split
        · exact (trimEnd_leads _ _).length_le
        · exact Nat.le_refl _
    rw [← hrest] at delimited
    obtain ⟨c, tail, here, mark⟩ := startsDelimiter_cases delimited
    have more : read.cursor.rest ≠ [] := by simp [here]
    split
    · exact readComment_lined h
    · next there =>
      split
      · exact readVerbatim_lined h _ _
      · refine .ok (readOpening_lined h _ ?_ more _)
        rw [here] at there ⊢
        cases there
        exact ⟨tail, rfl⟩
    · next noComment noBlock =>
      refine .ok (readOpening_lined h _ ?_ more _)
      rcases mark with rfl | rfl | rfl
      · exact here ▸ ⟨tail, rfl⟩
      · exact (noBlock _ _ here).elim
      · exact (noComment _ _ here).elim

theorem readMark_lined {c : Char} (here : [c] <+: s.cursor.rest) (more : s.cursor.rest ≠ []) :
    Within (1 + breaks cs) (State.Lined cs) (readMark s c) := by
  have starts : Lexeme .punctuation [c] s.cursor.rest := ⟨cons_ne_nil _ _, here⟩
  unfold readMark
  dsimp only
  split
  · exact .ok ((h.openBracket _ h.onLine).take .punctuation starts more Nat.zero_lt_one)
  · split
    · split
      · exact .error _ h.onLine
      · next top rest brackets =>
        split
        · exact .ok (h.closeBracket.take .punctuation starts more Nat.zero_lt_one)
        · exact .error _ (h.brackets top (brackets ▸ mem_cons_self))
    · exact .ok (h.take .punctuation starts more Nat.zero_lt_one)

variable (inside : s.modes ≠ [])

include inside

theorem readDoubleQuoted_lined {rest : List Char} (here : s.cursor.rest = '"' :: rest) :
    Within (1 + breaks cs) (State.Lined cs) (readDoubleQuoted s rest) := by
  unfold readDoubleQuoted
  dsimp only
  split
  · next body found =>
    refine .ok (h.take .string (.inl ⟨'"', by decide, body, ?_, rfl⟩) (by simp [here]) (Nat.succ_pos _))
    rw [here]
    exact (prefix_cons_inj _).2 (stringBody?_leads found)
  · split
    · exact .ok (((h.openBracket _ h.onLine).advance 1).enter inside .string)
    · exact .error _ h.onLine

theorem readExpression_lined (ops : Operators) :
    Within (1 + breaks cs) (State.Lined cs) (readExpression ops s) := by
  have skipped := h.skipSpace
  unfold readExpression
  dsimp only
  split
  · exact .ok skipped
  · next c rest here =>
    have more : s.skipSpace.cursor.rest ≠ [] := by simp [here]
    split
    · next op n found =>
      obtain ⟨found, positive⟩ := Option.filter_eq_some_iff.1 found
      have positive : 0 < n := by simpa using positive
      refine .ok (skipped.take .operator ⟨n, positive, ?_⟩ more positive)
      rw [String.ofList_toList]
      exact Operators.match?_words found
    · split
      -- the one place where a token is called a name
      · next start =>
        refine .ok (skipped.take .name ⟨?_, ?_⟩ more (Nat.succ_pos _))
        · rw [isName, String.toList_ofList]
          change (isNameStart c && (rest.takeWhile isNameChar).all isNameChar) = true
          rw [start, Bool.true_and]
          exact all_takeWhile
        · rw [here]
          exact (prefix_cons_inj c).2 (List.takeWhile_prefix _)
      · split
        · next digit =>
          have positive : 0 < ((c :: rest).take (numberLength (c :: rest))).length := by
            rw [length_take]
            exact Nat.lt_min.2 ⟨numberLength_pos digit rest, Nat.succ_pos _⟩
          refine .ok (skipped.take .number ⟨length_pos_iff.1 positive, ?_⟩ more positive)
          rw [here]
          exact List.take_prefix _ _
        · split
          · exact readMark_lined skipped (here ▸ ⟨rest, rfl⟩) more
          · split
            · next quote =>
              split
              · next body found =>
                refine .ok (skipped.take .string (.inl ⟨'\'', by decide, body, ?_, rfl⟩) more
                  (Nat.succ_pos _))
                rw [here, eq_of_beq quote]
                exact (prefix_cons_inj _).2 (stringBody?_leads found)
              · exact .error _ skipped.onLine
            · split
              · next quote =>
                exact readDoubleQuoted_lined skipped inside (by rw [here, eq_of_beq quote])
              · exact .error _ skipped.onLine

theorem readBlock_lined (ops : Operators) :
    Within (1 + breaks cs) (State.Lined cs) (readBlock ops s) := by
  have skipped := h.skipSpace
  unfold readBlock
  dsimp only
  split
  · split
    · next here =>
      exact .ok (skipped.take .blockEnd (.inr (here ▸ ⟨_, rfl⟩)) (by simp [here]) (by decide)).skipSpace.leave
    · next here =>
      exact .ok (skipped.take .blockEnd (.inl (here ▸ ⟨_, rfl⟩)) (by simp [here]) (by decide)).skipBreak.leave
    · exact readExpression_lined skipped inside ops
  · exact readExpression_lined skipped inside ops

theorem readPrint_lined (ops : Operators) :
    Within (1 + breaks cs) (State.Lined cs) (readPrint ops s) := by
  have skipped := h.skipSpace
  unfold readPrint
  dsimp only
  split
  · split
    · next here =>
      exact .ok (skipped.take .printEnd (.inr (here ▸ ⟨_, rfl⟩)) (by simp [here]) (by decide)).skipSpace.leave
    · next here =>
      exact .ok (skipped.take .printEnd (.inl (here ▸ ⟨_, rfl⟩)) (by simp [here]) (by decide)).leave
    · exact readExpression_lined skipped inside ops
  · exact readExpression_lined skipped inside ops

theorem readString_lined (more : s.cursor.rest ≠ []) :
    Within (1 + breaks cs) (State.Lined cs) (readString s) := by
  unfold readString
  dsimp only
  split
  · next here =>
    exact .ok (((h.openBracket _ h.onLine).take .interpolationStart (here ▸ ⟨_, rfl⟩) more (by decide)).enter inside _)
  · exact .ok (h.closeBracket.advance 1).leave
  · next noInterpolation noQuote =>
    have positive := stringPart_pos more noInterpolation noQuote
    exact .ok (h.take .string (.inr ⟨length_pos_iff.1 positive, rfl⟩) more positive)

theorem readInterpolation_lined (ops : Operators) :
    Within (1 + breaks cs) (State.Lined cs) (readInterpolation ops s) := by
  have skipped := h.skipSpace
  unfold readInterpolation
  dsimp only
  split
  · next ends =>
    simp only [Bool.and_eq_true, beq_iff_eq] at ends
    obtain ⟨rest, here⟩ := head?_eq_some_iff.1 ends.2
    have more : s.skipSpace.cursor.rest ≠ [] := by simp [here]
    exact .ok (skipped.closeBracket.take .interpolationEnd (here ▸ ⟨rest, rfl⟩) more
      Nat.zero_lt_one).leave
  · exact readExpression_lined skipped inside ops

omit inside

theorem step_lined (more : s.cursor.rest ≠ []) (ops : Operators) :
    Within (1 + breaks cs) (State.Lined cs) (step ops s) := by
  unfold step
  cases modes : s.modes with
  | nil => exact readPlain_lined h more
  | cons mode rest =>
    have inside : s.modes ≠ [] := by rw [modes]; exact cons_ne_nil _ _
    cases mode with
    | block => exact readBlock_lined h inside ops
    | print => exact readPrint_lined h inside ops
    | string => exact readString_lined h inside more
    | interpolation => exact readInterpolation_lined h inside ops

theorem finish_lined (ended : s.cursor.rest = []) :
    Within (1 + breaks cs) (fun tokens => ∃ places, Placed cs places tokens.toList) (finish s) := by
  unfold finish
  split
  · obtain ⟨places, placed, later⟩ := h.tokens
    have whole := placed.snoc h.cursor later (t := ⟨.endOfTemplate, "", s.cursor.line⟩) rfl ended
    exact .ok ⟨_, by rwa [Array.toList_push]⟩
  · next modes => exact .error _ (h.opened (by rw [modes]; exact cons_ne_nil _ _))
  · next modes => exact .error _ (h.opened (by rw [modes]; exact cons_ne_nil _ _))
  · split
    · next b _ brackets => exact .error _ (h.brackets b (brackets ▸ mem_cons_self))
    · exact .error _ h.onLine

theorem Reads.lined {ops : Operators} {answer : Answer (Array Token)} (reads : Reads ops s answer)
    {k : Option Token.Kind} (formed : s.Formed k) :
    Within (1 + breaks cs) (fun tokens => ∃ places, Placed cs places tokens.toList) answer := by
  induction reads generalizing k with
  | finish ended => exact finish_lined h ended
  | complain more stepped =>
    have next := step_lined h more ops
    rw [Option.some.inj ((strictStep_eq formed ops).symm.trans stepped)] at next
    cases next with
    | error reason line => exact .error reason line
  | step more stepped _ ih =>
    have next := step_lined h more ops
    have follows := step_follows formed more ops
    rw [Option.some.inj ((strictStep_eq formed ops).symm.trans stepped)] at next follows
    cases next with
    | ok h' =>
      cases follows with
      | ok follows =>
        obtain ⟨_, formed'⟩ := follows.formed
        exact ih h' formed'

omit h

theorem lined_start (cs : List Char) : (start cs).Lined cs where
  cursor := ⟨suffix_refl _, rfl⟩
  opened inside := absurd rfl inside
  brackets := forall_mem_nil _
  tokens := ⟨[], ⟨rfl, .nil, forall_mem_nil _, forall_mem_nil _, forall_mem_nil _⟩,
    forall_mem_nil _⟩

theorem tokenize_lined (ops : Operators) (source : String) :
    Within (1 + breaks (normalize source.toList))
      (fun tokens => ∃ places, Placed (normalize source.toList) places tokens.toList)
      (tokenize ops source) :=
  (reads_tokenize ops source).lined (lined_start _) (formed_start _)

def lineCount (source : String) : Nat := 1 + breaks (normalize source.toList)

/-- **Tokens, and complaints about the source, are on lines of the source.** -/
theorem tokenize_within (ops : Operators) (source : String) :
    Within (lineCount source) (TokensWithin (lineCount source)) (tokenize ops source) := by
  have lined := tokenize_lined ops source
  generalize tokenize ops source = answer at lined ⊢
  cases lined with
  | error reason line => exact .error reason line
  | ok placed =>
    obtain ⟨places, placed⟩ := placed
    have place {t : Token} (ht : t ∈ _) : ∃ p ∈ places, p.2 = t :=
      mem_map.1 (placed.tokens ▸ Array.mem_toList_iff.2 ht)
    refine .ok ⟨fun t ht => ?_, fun t ht is => ?_⟩
    · obtain ⟨p, hp, rfl⟩ := place ht
      have := ((take_sublist p.1 (normalize source.toList)).count_le '\n')
      rw [placed.line p hp, OnLine, lineCount]
      simp only [breaks] at *
      exact ⟨by omega, by omega⟩
    · obtain ⟨p, hp, rfl⟩ := place ht
      have starts := placed.starts p hp
      rw [is] at starts
      simpa using starts.1

/-- **Lines of tokens are exact.**  The tokens of a source start at places one after the other, the
last one at the end; each carries the line of its place, and what it stands for is there. -/
theorem tokenize_exact (ops : Operators) (source : String) (tokens : Array Token)
    (found : tokenize ops source = .ok tokens) :
    ∃ places, Placed (normalize source.toList) places tokens.toList := by
  have lined := tokenize_lined ops source
  rw [found] at lined
  cases lined with
  | ok placed => exact placed

/-- A text over two lines, and a print of a string whose delimiters have dashes. -/
theorem tokenize_exact_dashed :
    ∃ tokens, tokenize ["="] "a\r\nb \x7b\x7b- 'c' -\x7d\x7d" = .ok tokens ∧ tokens.size = 5 ∧
      ∃ places, Placed (normalize "a\r\nb \x7b\x7b- 'c' -\x7d\x7d".toList) places tokens.toList :=
  ⟨#[⟨.text, "a\nb", 1⟩, ⟨.printStart, "", 2⟩, ⟨.string, "c", 2⟩, ⟨.printEnd, "", 2⟩,
    ⟨.endOfTemplate, "", 2⟩], by rfl, rfl, tokenize_exact ["="] _ _ (by rfl)⟩

end Scanner
end Stencil
