import Stencil.Proofs.Phrases

/-!
# What is written is read back

Outside delimiters one step reads a text and the delimiter behind it, so a segment is looked at
together with the text before it (`goes_segment`). White space is cut off such a text at two places:
its end by the step that reads it, its beginning by the step that reads the delimiter before it.
`Lead.trim` is what the latter does to all that follows, and as a delimiter is no white
space it does that to the text alone.

`tokenize_write` puts the segments together: tokenizing what was written gives the tokens that were
meant.
-/

namespace Stencil.Scanner

open List State
open Source (Word Phrase Segment Lead unlessEmpty dash)

/-! ## Delimiters -/

section Delimiters

variable {t r : List Char} {out : List (Token.Kind × String)} {s : State}

def trimmed (dashed : Bool) (t : List Char) : List Char :=
  if dashed then Text.trimEnd isSpace t else t

def State.past (s : State) (t : List Char) (dashed : Bool) : State :=
  (if (trimmed dashed t).isEmpty then s
    else s.emit .text (trimmed dashed t) s.cursor.line).advance t.length

theorem State.view_past (hs : s.view = ⟨t ++ r, [], [], out⟩) (dashed : Bool) :
    (s.past t dashed).view = ⟨r, [], [], out ++ unlessEmpty .text (trimmed dashed t)⟩ := by
  unfold past unlessEmpty
  split <;> simp [hs]

theorem head?_dash (dashed : Bool) (cs : List Char) :
    ((dash dashed ++ ' ' :: cs).head? == some '-') = dashed := by
  cases dashed <;> rfl

theorem readPlain_eq {k : Char} {dashed : Bool}
    (hrest : s.cursor.rest = t ++ '{' :: k :: (dash dashed ++ ' ' :: r)) (ht : '{' ∉ t)
    (hk : k ∈ ['{', '%', '#'])
    (untagged : tag? ["verbatim", "raw"] ('{' :: k :: (dash dashed ++ ' ' :: r)) = none) :
    readPlain s =
      if k = '#' then readComment (s.past t dashed)
      else if k = '%' then .ok (readOpening (s.past t dashed) .block .blockStart dashed)
      else .ok (readOpening (s.past t dashed) .print .printStart dashed) := by
  have starts : startsDelimiter ('{' :: k :: (dash dashed ++ ' ' :: r)) = true := by
    simpa [startsDelimiter, or_assoc] using hk
  have text : plainText s.cursor.rest = t := by
    rw [hrest, plainText_append ht, plainText, if_pos starts, append_nil]
  have more : (t.length == s.cursor.rest.length) = false := by
    rw [hrest]
    simp
  have marked : ((s.cursor.rest.drop (t.length + 2)).head? == some '-') = dashed := by
    rw [hrest, ← drop_drop, drop_left]
    exact head?_dash dashed r
  have rest : (s.past t dashed).cursor.rest = '{' :: k :: (dash dashed ++ ' ' :: r) := by
    unfold past
    split <;> simp [advance, Cursor.advance, emit, hrest]
  unfold past trimmed at rest
  unfold readPlain past trimmed
  simp only [text, more, marked, rest, Bool.false_eq_true, if_false]
  simp only [mem_cons, not_mem_nil, or_false] at hk
  rcases hk with rfl | rfl | rfl
  · rfl
  · simp only [untagged]
    rfl
  · rfl

end Delimiters

/-! ## Sections that are not read -/

section Verbatim

variable {r cs : List Char} {name : List Char}

theorem untagged_of_ne {k : Char} (hk : k ≠ '%') (names : List String) (cs : List Char) :
    tag? names ('{' :: k :: cs) = none := by
  refine findSome?_eq_none_iff.2 fun name _ => ?_
  rw [Option.map_eq_none_iff]
  unfold tagLength?
  split
  · next same => exact absurd (List.cons.inj (List.cons.inj same).2).1 hk
  · rfl

theorem takeWhile_isTagSpace (solid : ∀ c ∈ cs.head?, isSpace c = false) :
    (' ' :: cs).takeWhile isTagSpace = [' '] := by
  cases cs with
  | nil => rfl
  | cons c cs =>
    have hc := (Bool.or_eq_false_iff.1 (isWordSpace_of_isSpace (solid c rfl))).1
    rw [takeWhile_cons_of_pos (by decide), takeWhile_cons_of_neg (by simp [hc])]

theorem tagLength?_eq_none {dashed : Bool} (solid : ∀ c ∈ cs.head?, isSpace c = false)
    (open_ : name.isPrefixOf cs = true →
      Starts ((cs.drop name.length).drop ((cs.drop name.length).takeWhile isTagSpace).length)) :
    tagLength? name ('{' :: '%' :: (dash dashed ++ ' ' :: cs)) = none := by
  have lead := takeWhile_isTagSpace solid
  unfold tagLength?
  simp only [head?_dash]
  cases dashed
  all_goals
    simp only [dash, Bool.false_eq_true, if_true, if_false, nil_append, singleton_append,
      drop_zero, drop_succ_cons, lead, length_singleton, Nat.zero_add]
    split
    · next found =>
      have starts := open_ found
      rw [drop_drop] at starts
      split
      · next here => exact absurd (starts.dashed here) (by decide)
      · next here => exact absurd (starts.percent here) (by decide)
      · next here => exact absurd (starts.percent here) (by decide)
      · rfl
    · rfl

theorem untagged_phrase {p : Phrase} (other : p.opensVerbatim = false) (closes : Closes r)
    (dashed : Bool) :
    tag? ["verbatim", "raw"] ('{' :: '%' :: (dash dashed ++ ' ' :: (p.write ++ r))) = none := by
  refine findSome?_eq_none_iff.2 fun name hname => ?_
  rw [Option.map_eq_none_iff]
  refine tagLength?_eq_none (solid_phrase p closes) fun found => ?_
  have solid : ∀ name ∈ ["verbatim", "raw"], (name.toList.all fun c => !isWordSpace c) = true := by
    decide
  have letters : ∀ name ∈ ["verbatim", "raw"], name.toList.head?.any isAlpha = true := by
    decide
  -- the name stands in the block only if a name starts the phrase
  have alpha {c : Char} {t : List Char} (letter : isAlpha c = false)
      (found : name.toList.isPrefixOf (c :: t) = true) : False := by
    obtain ⟨d, hd, alpha⟩ := (Option.any_eq_true _ _).1 (letters name hname)
    obtain ⟨u, hu⟩ := head?_eq_some_iff.1 hd
    rw [hu, isPrefixOf_cons_cons, Bool.and_eq_true, beq_iff_eq] at found
    rw [found.1, letter] at alpha
    cases alpha
  rcases Phrase.first_cases p closes with ⟨w, rest, rfl⟩ | ⟨-, c, t, first, -, letter⟩
  · rw [Phrase.write, append_assoc, cons_append] at found ⊢
    rw [isPrefixOf_append_space (solid name hname)] at found
    rcases Word.first_cases w with ⟨value, rfl⟩ | ⟨value, rfl⟩ | ⟨c, u, first, letter⟩
    · obtain ⟨u, hu⟩ := List.isPrefixOf_iff_prefix.1 found
      rw [← hu, append_assoc, drop_left]
      change name.toList ++ u = value.1.toList at hu
      cases u with
      | nil =>
        have same : value.1 = name := String.toList_inj.1 (by simpa using hu.symm)
        have more : rest ≠ .nil := by
          rintro rfl
          simp only [Phrase.opensVerbatim, same, Bool.or_eq_false_iff, beq_eq_false_iff_ne] at other
          simp [other] at hname
        rw [nil_append, takeWhile_isTagSpace (solid_phrase rest closes)]
        exact starts_phrase more r
      | cons d u =>
        have hd := forall_isNameChar value.2.1 d (by simp [← hu])
        have tagged := (Bool.or_eq_false_iff.1 (isWordSpace_of_isNameChar hd)).1
        rw [cons_append, takeWhile_cons_of_neg (by simp [tagged])]
        exact starts_of_first (startsGap_of_class (by decide) hd) _
    · have parts : ∀ op ∈ Language.scanned, ∀ name ∈ ["verbatim", "raw"],
          name.toList.isPrefixOf op.toList = false := by decide
      change name.toList.isPrefixOf value.1.toList = true at found
      rw [parts value.1 value.2 name hname] at found
      cases found
    · exact (alpha letter (first ▸ found)).elim
  · exact (alpha letter (first ▸ found)).elim

end Verbatim

/-! ## Segments -/

section Segments

variable {t r : List Char} {out : List (Token.Kind × String)}

theorem length_trim (lead : Lead) (cs : List Char) : (lead.trim cs).length ≤ cs.length := by
  unfold Lead.trim
  split
  · exact Nat.le_succ _
  · exact (dropWhile_sublist _).length_le
  · exact Nat.le_refl _

theorem view_readOpening (s : State) (mode : Mode) (kind : Token.Kind) (dashed : Bool) :
    (readOpening s mode kind dashed).view = ⟨s.view.rest.drop (if dashed then 3 else 2),
      mode :: s.view.modes, s.view.openings, s.view.contents ++ [(kind, "")]⟩ := by
  simp [readOpening, view, emit, enter, advance, Cursor.advance, Token.content]

theorem goes_open {mode : Mode} {kind : Token.Kind} {k : Char} {dashed : Bool} (ht : '{' ∉ t)
    (known : k = '%' ∧ mode = .block ∧ kind = .blockStart ∨
      k = '{' ∧ mode = .print ∧ kind = .printStart)
    (untagged : tag? ["verbatim", "raw"] ('{' :: k :: (dash dashed ++ ' ' :: r)) = none) :
    Goes ⟨t ++ '{' :: k :: (dash dashed ++ ' ' :: r), [], [], out⟩
      ⟨' ' :: r, [mode], [], out ++ unlessEmpty .text (trimmed dashed t) ++ [(kind, "")]⟩ := by
  refine goes_of_step (fun s hs => ?_) ?_
  · have hrest := congrArg View.rest hs
    have past := view_past hs dashed
    have stepped : step Language.scanned s =
        .ok (readOpening (s.past t dashed) mode kind dashed) := by
      unfold step
      rw [show s.modes = [] from congrArg View.modes hs]
      show readPlain s = _
      rw [readPlain_eq hrest ht (by rcases known with ⟨rfl, -⟩ | ⟨rfl, -⟩ <;> decide) untagged]
      rcases known with ⟨rfl, rfl, rfl⟩ | ⟨rfl, rfl, rfl⟩ <;> rfl
    refine ⟨_, stepped, ?_⟩
    rw [view_readOpening, past]
    cases dashed <;> rfl
  · cases dashed <;> simp [dash] <;> omega

theorem goes_close {mode : Mode} {kind : Token.Kind} {k : Char} {lead : Lead} (dashed : Bool)
    (known : k = '%' ∧ mode = .block ∧ kind = .blockEnd ∧ lead = .newline ∨
      k = '}' ∧ mode = .print ∧ kind = .printEnd ∧ lead = .keep) :
    Goes ⟨' ' :: (dash dashed ++ k :: '}' :: r), [mode], [], out⟩
      ⟨(if dashed then Lead.space else lead).trim r, [], [], out ++ [(kind, "")]⟩ := by
  refine goes_of_step (fun s hs => ?_) ?_
  · have hrest := congrArg View.rest hs
    have on := onToken_skipSpace hrest (by
      rcases known with ⟨rfl, -⟩ | ⟨rfl, -⟩ <;> cases dashed <;> simp [dash, isSpace])
    have view : s.skipSpace.view = { s.view with rest := dash dashed ++ k :: '}' :: r } := by
      rw [← on.rest]
      rfl
    rw [hs] at view
    have closed : s.skipSpace.brackets = [] := map_eq_nil_iff.1 (congrArg View.openings hs)
    unfold step
    rw [show s.modes = [mode] from congrArg View.modes hs]
    rcases known with ⟨rfl, rfl, rfl, rfl⟩ | ⟨rfl, rfl, rfl, rfl⟩
    · simp only [readBlock, closed, on.rest, isEmpty_nil, if_true]
      cases dashed with
      | true => exact ⟨_, rfl, by simp [view, dash, Lead.trim]⟩
      | false =>
        refine ⟨_, rfl, ?_⟩
        rw [view_leave, view_skipBreak]
        simp [view, dash]
    · simp only [readPrint, closed, on.rest, isEmpty_nil, if_true]
      cases dashed with
      | true | false => exact ⟨_, rfl, by simp [view, dash, Lead.trim]⟩
  · have := length_trim (if dashed then Lead.space else lead) r
    cases dashed <;> simp [dash] at * <;> omega

theorem readComment_eq {s : State} {cs : List Char} (inner : ¬ ['#', '}'] <:+: cs) {dashed : Bool}
    (hrest : s.cursor.rest = cs ++ ' ' :: (dash dashed ++ '#' :: '}' :: r)) :
    ∃ s', readComment s = .ok s' ∧
      s'.view = { s.view with rest := (if dashed then Lead.space else .newline).trim r } := by
  have length : commentLength? s.cursor.rest = some (cs.length + ((dash dashed).length + 3)) := by
    rw [hrest, commentLength?_append inner (by decide)]
    cases dashed <;> simp [commentLength?, dash]
  have mark : (s.cursor.rest[cs.length + ((dash dashed).length + 3) - 3]? == some '-') = dashed := by
    rw [hrest, show cs.length + ((dash dashed).length + 3) - 3 = cs.length + (dash dashed).length by
      omega, getElem?_append_right (by omega)]
    cases dashed <;> simp [dash]
  have after : (s.advance (cs.length + ((dash dashed).length + 3))).view = { s.view with rest := r } := by
    rw [view_advance, show s.view.rest = _ from hrest, ← drop_drop, drop_left]
    cases dashed <;> rfl
  have long : decide (3 ≤ cs.length + ((dash dashed).length + 3)) = true :=
    decide_eq_true (by omega)
  unfold readComment
  simp only [length, mark, long, Bool.true_and]
  refine ⟨_, rfl, ?_⟩
  cases dashed with
  | true => exact (view_skipSpace _).trans (by rw [after])
  | false => exact (view_skipBreak _).trans (by rw [after])

theorem goes_comment {v : List Char} (ht : '{' ∉ t) (inner : ¬ ['#', '}'] <:+: v)
    (opened closed : Bool) :
    Goes ⟨t ++ '{' :: '#' :: (dash opened ++ ' ' :: (v ++ ' ' :: (dash closed ++ '#' :: '}' :: r))),
        [], [], out⟩
      ⟨(if closed then Lead.space else .newline).trim r, [], [],
        out ++ unlessEmpty .text (trimmed opened t)⟩ := by
  have inner : ¬ ['#', '}'] <:+: '{' :: '#' :: (dash opened ++ ' ' :: v) := by
    cases opened <;> simpa [dash, infix_cons_iff] using inner
  refine goes_of_step (fun s hs => ?_) ?_
  · have past := view_past hs opened
    have hpast : (s.past t opened).cursor.rest = '{' :: '#' :: (dash opened ++ ' ' :: v) ++
        ' ' :: (dash closed ++ '#' :: '}' :: r) := by
      rw [show (s.past t opened).cursor.rest = _ from congrArg View.rest past]
      simp
    obtain ⟨s', read, view⟩ := readComment_eq inner hpast
    refine ⟨s', ?_, ?_⟩
    · unfold step
      rw [show s.modes = [] from congrArg View.modes hs]
      show readPlain s = _
      rw [readPlain_eq (congrArg View.rest hs) ht (by decide) (untagged_of_ne (by decide) _ _)]
      exact read
    · rw [view, past]
  · have := length_trim (if closed then Lead.space else .newline) r
    simp
    omega

theorem normalize_dash (dashed : Bool) (cs : List Char) :
    normalize (dash dashed ++ cs) = dash dashed ++ normalize cs := by
  cases dashed with
  | false => rfl
  | true => exact normalize_cons (by simp)

/-- A print and a block have no line breaks of two characters. -/
theorem normalize_enclosed {k d : Char} (hk : k ∉ ['\r', '\n']) (hd : d ∉ ['\r', '\n'])
    (opened closed : Bool) (phrase : Phrase) (r : List Char) :
    normalize ('{' :: k :: (dash opened ++ ' ' ::
        (phrase.write ++ (dash closed ++ [d, '}'])))) ++ r =
      '{' :: k :: (dash opened ++ ' ' ::
        (phrase.write ++ (dash closed ++ d :: '}' :: r))) := by
  simp only [mem_cons, not_mem_nil, or_false, not_or] at hk hd
  rw [normalize_cons (by simp), normalize_cons (by simp [hk]), normalize_dash,
    normalize_cons (by simp), normalize_append (by cases closed <;> simp [dash, hd]),
    normalize_phrase, normalize_dash, normalize_cons (by simp)]
  simp [normalize]

theorem append_enclosed (xs ys : List (Token.Kind × String)) (a b : Token.Kind × String) :
    xs ++ a :: (ys ++ [b]) = xs ++ [a] ++ ys ++ [b] := by
  simp

theorem closes_dash {c : Char} (hc : c ∈ ['}', '%']) (dashed : Bool) (r : List Char) :
    Closes (dash dashed ++ c :: r) := by
  cases dashed with
  | false =>
    refine ⟨c, r, rfl, ?_⟩
    rcases mem_cons.1 hc with rfl | hc
    · decide
    · rw [mem_singleton.1 hc]
      decide
  | true => exact ⟨_, _, rfl, by decide⟩

/-- **A segment is read as it was written**, with the text before it. -/
theorem goes_segment {segment : Segment} (notText : segment.isText = false)
    (clear : segment.isClear = true) (ht : '{' ∉ t) :
    Goes ⟨t ++ (normalize segment.write ++ r), [], [], out⟩
      ⟨segment.lead.trim r, [], [],
        out ++ unlessEmpty .text (trimmed segment.trims t) ++ segment.contents⟩ := by
  cases segment with
  | text value => cases notText
  | comment opened closed value =>
    have same : normalize (Segment.comment opened closed value).write ++ r =
        '{' :: '#' :: (dash opened ++ ' ' :: (normalize value.1.toList ++ ' ' ::
          (dash closed ++ '#' :: '}' :: r))) := by
      rw [Segment.write, normalize_cons (by simp), normalize_cons (by simp), normalize_dash,
        normalize_cons (by simp), normalize_append (by simp), normalize_cons (by simp),
        normalize_dash]
      simp [normalize]
    rw [same, Segment.contents, append_nil]
    exact goes_comment ht (not_infix_normalize value.2) opened closed
  | print opened closed phrase =>
    rw [Segment.write, normalize_enclosed (by decide) (by decide), Segment.contents,
      append_enclosed]
    exact (goes_open ht (.inr ⟨rfl, rfl, rfl⟩) (untagged_of_ne (by decide) _ _)).trans <|
      (goes_phrase phrase clear (by decide) (closes_dash (by decide) closed _)).trans
        (goes_close closed (.inr ⟨rfl, rfl, rfl, rfl⟩))
  | block opened closed phrase =>
    obtain ⟨apart, other⟩ := Bool.and_eq_true_iff.1 clear
    rw [Segment.write, normalize_enclosed (by decide) (by decide), Segment.contents,
      append_enclosed]
    have closes := closes_dash (c := '%') (by decide) closed ('}' :: r)
    exact (goes_open ht (.inl ⟨rfl, rfl, rfl⟩)
        (untagged_phrase (Bool.not_eq_true' _ ▸ other) closes opened)).trans <|
      (goes_phrase phrase apart (by decide) closes).trans (goes_close closed
        (.inl ⟨rfl, rfl, rfl, rfl⟩))

end Segments

/-! ## Whole sources -/

section Sources

variable {cs r : List Char}

/-- What is cut off the beginning of a source is cut off its first text. -/
theorem trim_append (lead : Lead) (cs : List Char) (hr : r.head? = some '{') :
    lead.trim (cs ++ r) = lead.trim cs ++ r := by
  obtain ⟨r, rfl⟩ := head?_eq_some_iff.1 hr
  cases lead with
  | keep => rfl
  | newline =>
    cases cs with
    | nil => rfl
    | cons c cs => by_cases hc : c = '\n' <;> simp [Lead.trim, hc]
  | space =>
    simp only [Lead.trim, dropWhile_append]
    split
    · next none => simp [List.isEmpty_iff.1 none, isSpace]
    · rfl

theorem mem_of_mem_trim {lead : Lead} {c : Char} (h : c ∈ lead.trim cs) : c ∈ cs := by
  unfold Lead.trim at h
  split at h
  · exact mem_cons_of_mem _ h
  · exact (dropWhile_sublist _).mem h
  · exact h

/-- The characters of a list of segments, line breaks made plain. -/
def readable (segments : List Segment) : List Char :=
  segments.flatMap fun segment => normalize segment.write

variable {segment : Segment} {rest : List Segment}

theorem write_brackets (notText : segment.isText = false) :
    ∃ inner, segment.write = '{' :: (inner ++ ['}']) := by
  cases segment with
  | text value => cases notText
  | comment opened closed value =>
    exact ⟨'#' :: (dash opened ++ ' ' :: (value.1.toList ++ ' ' :: (dash closed ++ ['#']))),
      by simp [Segment.write]⟩
  | print opened closed phrase =>
    exact ⟨'{' :: (dash opened ++ ' ' :: (phrase.write ++ (dash closed ++ ['}']))),
      by simp [Segment.write]⟩
  | block opened closed phrase =>
    exact ⟨'%' :: (dash opened ++ ' ' :: (phrase.write ++ (dash closed ++ ['%']))),
      by simp [Segment.write]⟩

theorem head?_readable (notText : segment.isText = false) (rest : List Segment) :
    (readable (segment :: rest)).head? = some '{' := by
  obtain ⟨inner, brackets⟩ := write_brackets notText
  rw [readable, flatMap_cons, brackets, normalize_cons (by simp)]
  rfl

theorem normalize_write {segments : List Segment}
    (chain : segments.IsChain fun a b => (a.isText && b.isText) = false) :
    normalize (segments.flatMap Segment.write) = readable segments := by
  induction segments with
  | nil => rfl
  | cons segment rest ih =>
    rw [flatMap_cons, normalize_append, ih chain.tail, readable, readable, flatMap_cons]
    -- a text is followed by a delimiter, and a delimiter does not end within a line break
    intro last first
    cases kind : segment.isText with
    | false =>
      obtain ⟨inner, brackets⟩ := write_brackets kind
      simp [brackets, getLast?_cons] at last
    | true =>
      cases rest with
      | nil => cases first
      | cons next rest =>
        have other : next.isText = false := by
          simpa [kind] using chain.rel
        obtain ⟨inner, brackets⟩ := write_brackets other
        simp [brackets] at first

theorem goes_last (hcs : '{' ∉ cs) (out : List (Token.Kind × String)) :
    Goes ⟨cs, [], [], out⟩ ⟨[], [], [], out ++ unlessEmpty .text cs⟩ := by
  cases hempty : cs with
  | nil => simpa [unlessEmpty] using Goes.refl _
  | cons c t =>
    rw [← hempty]
    refine goes_of_step (fun s hs => ?_) (by simp [hempty])
    have hrest : s.cursor.rest = cs := congrArg View.rest hs
    have text : plainText cs = cs := by simpa [plainText] using plainText_append hcs []
    have stepped : step Language.scanned s = readPlain s := by
      unfold step
      rw [show s.modes = [] from congrArg View.modes hs]
    rw [stepped, readPlain]
    simp only [hrest, text, beq_self_eq_true, if_true]
    refine ⟨_, rfl, ?_⟩
    simp [hs, unlessEmpty, hempty]

theorem contents_cons (notText : segment.isText = false) (lead : Lead) (rest : List Segment) :
    Source.contents lead (segment :: rest) = segment.contents ++ Source.contents segment.lead
      rest := by
  cases segment with
  | text value => cases notText
  | comment | print | block => rfl

theorem goes_cons {t : List Char} {shown : List (Token.Kind × String)}
    (notText : segment.isText = false) (clear : segment.isClear = true) (ht : '{' ∉ t)
    (after : ∀ out, Goes ⟨segment.lead.trim (readable rest), [], [], out⟩
      ⟨[], [], [], out ++ shown⟩) (out : List (Token.Kind × String)) :
    Goes ⟨t ++ readable (segment :: rest), [], [], out⟩
      ⟨[], [], [], out ++ (unlessEmpty .text (trimmed segment.trims t) ++
        (segment.contents ++ shown))⟩ := by
  rw [← append_assoc out, ← append_assoc _ segment.contents]
  exact (goes_segment notText clear ht).trans (after _)

theorem readable_text {s : String} (h : '{' ∉ s.toList ∧ ¬ ['\r', '\n'] <:+: s.toList)
    (rest : List Segment) : readable (.text ⟨s, h⟩ :: rest) = s.toList ++ readable rest := by
  rw [readable, flatMap_cons, Segment.write, normalize_of_unbroken h.2]
  rfl

/-- What is read back: the tokens that were meant, and an end. -/
def ReadBack (lead : Lead) (segments : List Segment) : Prop :=
  ∃ shown, Source.contents lead segments = shown ++ [(.endOfTemplate, "")] ∧
    ∀ out, Goes ⟨lead.trim (readable segments), [], [], out⟩ ⟨[], [], [], out ++ shown⟩

theorem readBack_cons (notText : segment.isText = false) (clear : segment.isClear = true)
    (after : ReadBack segment.lead rest) (lead : Lead) : ReadBack lead (segment :: rest) := by
  obtain ⟨shown, same, goes⟩ := after
  refine ⟨segment.contents ++ shown, ?_, fun out => ?_⟩
  · rw [contents_cons notText, same, append_assoc]
  · have first : lead.trim (readable (segment :: rest)) = readable (segment :: rest) := by
      have cut := trim_append lead [] (head?_readable notText rest)
      cases lead <;> exact cut
    have none : unlessEmpty .text (trimmed segment.trims []) = [] := by
      cases segment.trims <;> rfl
    have goes := goes_cons notText clear not_mem_nil goes out
    rwa [none, nil_append, nil_append, ← first] at goes

theorem readBack_text {value : { s : String // '{' ∉ s.toList ∧ ¬ ['\r', '\n'] <:+: s.toList }}
    {next : Segment} (notText : next.isText = false) (clear : next.isClear = true)
    (after : ReadBack next.lead rest) (lead : Lead) :
    ReadBack lead (.text value :: next :: rest) := by
  obtain ⟨shown, same, goes⟩ := after
  refine ⟨unlessEmpty .text (trimmed next.trims (lead.trim value.1.toList)) ++
    (next.contents ++ shown), ?_, fun out => ?_⟩
  · rw [Source.contents, contents_cons notText, same, append_assoc, append_assoc]
    rfl
  · rw [readable_text value.2, trim_append lead _ (head?_readable notText rest)]
    exact goes_cons notText clear (fun h => value.2.1 (mem_of_mem_trim h)) goes out

theorem readBack : ∀ (segments : List Segment) (lead : Lead), Source.WellSpelled segments →
    ReadBack lead segments
  | [], lead, _ => by
    refine ⟨[], rfl, fun out => ?_⟩
    rw [append_nil]
    cases lead <;> exact .refl _
  | [.text value], lead, _ => by
    refine ⟨unlessEmpty .text (lead.trim value.1.toList), rfl, fun out => ?_⟩
    rw [readable_text value.2, show readable [] = [] from rfl, append_nil]
    exact goes_last (fun h => value.2.1 (mem_of_mem_trim h)) out
  | .text value :: next :: rest, lead, ⟨clear, chain⟩ => by
    have other : next.isText = false := by simpa [Segment.isText] using chain.rel
    have well : Source.WellSpelled rest :=
      ⟨fun s h => clear s (mem_cons_of_mem _ (mem_cons_of_mem _ h)), chain.tail.tail⟩
    exact readBack_text other (clear next (by simp)) (readBack rest next.lead well) lead
  | .comment _ _ _ :: rest, lead, ⟨clear, chain⟩
  | .print _ _ _ :: rest, lead, ⟨clear, chain⟩
  | .block _ _ _ :: rest, lead, ⟨clear, chain⟩ =>
    readBack_cons rfl (clear _ mem_cons_self)
      (readBack rest _ ⟨fun s h => clear s (mem_cons_of_mem _ h), chain.tail⟩) lead

end Sources

end Stencil.Scanner

namespace Stencil.Source

open List

/-- **Tokenizing what was written gives the tokens that were meant**, apart from their lines. -/
theorem tokenize_write (segments : List Segment) (well : WellSpelled segments) :
    ∃ tokens, Scanner.tokenize (.ofNames Registry.coreVocabulary.operatorNames) (write segments) =
        .ok tokens ∧
      tokens.toList.map Token.content = contents .keep segments := by
  obtain ⟨shown, same, goes⟩ := Scanner.readBack segments .keep well
  have source : Scanner.normalize (write segments).toList = Scanner.readable segments := by
    rw [write, String.toList_ofList, Scanner.normalize_write well.2]
  obtain ⟨final, view, passes⟩ := goes [] (Scanner.start (Scanner.readable segments)) rfl
  have ended : final.cursor.rest = [] := congrArg Scanner.View.rest view
  have modes : final.modes = [] := congrArg Scanner.View.modes view
  have tokens : final.tokens.toList.map Token.content = shown := congrArg Scanner.View.contents view
  refine ⟨final.tokens.push ⟨.endOfTemplate, "", final.cursor.line⟩, ?_, ?_⟩
  · rw [Registry.scanned_core, Scanner.tokenize, source]
    refine (passes.scan_eq ended (Nat.le_refl _)).trans ?_
    rw [Scanner.finish, modes]
  · rw [Array.toList_push, map_append, tokens, same]
    rfl

/-- Text that is cut on both sides, a comment, and a string with an interpolation. -/
def letter : List Segment :=
  [.text ⟨"Dear \n", by decide⟩,
    .comment true false ⟨"# who", by decide⟩,
    .text ⟨"\n", by decide⟩,
    .print false true (.string ⟨"#", by decide⟩
      (.group .round (.word (.name ⟨"name", by decide⟩)
        (.word (.operator ⟨"starts with", by decide⟩)
          (.word (.single ⟨"\\ '", by decide⟩) .nil))) .nil)
      (.done ⟨"", by decide⟩) .nil),
    .text ⟨" \n!", by decide⟩]

theorem tokenize_write_letter :
    WellSpelled letter ∧
    write letter = "Dear \n\x7b#- # who #\x7d\n\x7b\x7b \"\\##\x7b ( name starts with '\\\\ \\'' ) \x7d\" -\x7d\x7d \n!" ∧
    ∃ tokens, Scanner.tokenize (.ofNames Registry.coreVocabulary.operatorNames) (write letter) =
        .ok tokens ∧
      tokens.toList.map Token.content =
        [(.text, "Dear"), (.printStart, ""), (.string, "#"), (.interpolationStart, ""),
          (.punctuation, "("), (.name, "name"), (.operator, "starts with"), (.string, "\\ '"),
          (.punctuation, ")"), (.interpolationEnd, ""), (.printEnd, ""), (.text, "!"),
          (.endOfTemplate, "")] := by
  have well : WellSpelled letter := by
    refine ⟨?_, ?_⟩
    · decide
    · decide
  refine ⟨well, by decide, ?_⟩
  obtain ⟨tokens, read, same⟩ := tokenize_write letter well
  refine ⟨tokens, read, same.trans ?_⟩
  decide

/-- What `WellSpelled` leaves out is read as something else: a block with the name `verbatim` alone is
the beginning of a section, two operators side by side are one, two names side by side are an
operator, and a string does not keep a line break of two characters. -/
theorem write_misread :
    (Scanner.tokenize (.ofNames Registry.coreVocabulary.operatorNames) (write
      [.block false false (.word (.name ⟨"verbatim", by decide⟩) .nil)])).toOption = none ∧
    (Scanner.tokenize (.ofNames Registry.coreVocabulary.operatorNames) (write
      [.print false false (.word (.operator ⟨"is", by decide⟩)
        (.word (.operator ⟨"not", by decide⟩) .nil))])).toOption.map
          (·.toList.map Token.content) =
      some [(.printStart, ""), (.operator, "is not"), (.printEnd, ""), (.endOfTemplate, "")] ∧
    (Scanner.tokenize (.ofNames Registry.coreVocabulary.operatorNames) (write
      [.print false false (.word (.name ⟨"starts", by decide⟩)
        (.word (.name ⟨"with", by decide⟩) .nil))])).toOption.map
          (·.toList.map Token.content) =
      some [(.printStart, ""), (.operator, "starts with"), (.printEnd, ""), (.endOfTemplate, "")] ∧
    (Scanner.tokenize (.ofNames Registry.coreVocabulary.operatorNames)
      "\x7b\x7b 'a\r\nb' \x7d\x7d").toOption.map (·.toList.map Token.content) =
      some [(.printStart, ""), (.string, "a\nb"), (.printEnd, ""), (.endOfTemplate, "")] := by
  rw [Registry.scanned_core]
  refine ⟨?_, ?_, ?_, ?_⟩
  · decide
  · decide
  · decide
  · decide

end Stencil.Source
