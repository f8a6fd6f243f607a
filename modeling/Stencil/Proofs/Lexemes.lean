import Stencil.Proofs.Spelling

/-!
# Reading one word back

What the parts of the scanner make of a word that `Source.write` has written, with a space behind it:
which operator stands there, where a string ends and what its escapes stand for, how long a number
is. Nothing here is about states; these are the facts a step of the scanner rests on.

An operator is looked for by its words. As the text behind a space matters to operators of two words
only, `match?_append` compares the text with the word alone, where all that is asked about the
operators of the language can be computed.
-/

namespace Stencil.Scanner

open List
open Source (escape)

/-! ## Operators -/

section Operators

variable {op : String} {w ℓ r : List Char} {n : Nat}

/-- A word that does not hold a space is found before the space or not at all. -/
theorem isPrefixOf_append_space (hw : (w.all fun c => !isWordSpace c) = true) (ℓ r : List Char) :
    w.isPrefixOf (ℓ ++ ' ' :: r) = w.isPrefixOf ℓ := by
  induction w generalizing ℓ with
  | nil => simp
  | cons c w ih =>
    obtain ⟨hc, hw⟩ := Bool.and_eq_true_iff.1 (all_cons ▸ hw)
    have hc : c ≠ ' ' := by rintro rfl; cases hc
    cases ℓ with
    | nil => simp [isPrefixOf_cons_cons, hc]
    | cons d ℓ => simp [isPrefixOf_cons_cons, ih hw ℓ]

theorem matchWords?_one (w cs : List Char) :
    matchWords? false [w] cs = if w.isPrefixOf cs then some w.length else none := by
  simp [matchWords?]

theorem matchWords?_two (u v cs : List Char) :
    matchWords? false [u, v] cs =
      if u.isPrefixOf cs then matchWords? true [v] (cs.drop u.length) |>.map (u.length + ·)
      else none := by
  simp [matchWords?]

theorem matchWords?_spaced (v : List Char) {cs : List Char}
    (h : (cs.takeWhile isWordSpace).length = 0) : matchWords? true [v] cs = none := by
  simp [matchWords?, h]

theorem matchWords?_after_space (v : List Char) (hr : ∀ c ∈ r.head?, isWordSpace c = false) :
    matchWords? true [v] (' ' :: r) = if v.isPrefixOf r then some (v.length + 1) else none := by
  have gap : (' ' :: r).takeWhile isWordSpace = [' '] := by
    cases r with
    | nil => rfl
    | cons c r =>
      rw [takeWhile_cons_of_pos (by decide), takeWhile_cons_of_neg (by simp [hr c rfl])]
  simp [matchWords?, gap, Nat.add_comm]

/-- The operators of the language have one word, or two with a space between them. -/
theorem words_scanned (h : op ∈ Language.scanned) :
    Text.words op = [op.toList] ∨
      ∃ u ∈ ["starts", "ends", "is", "not"], ∃ v ∈ ["with", "not", "in"],
        Text.words op = [u.toList, v.toList] ∧ op.toList = u.toList ++ ' ' :: v.toList := by
  revert op
  decide

theorem letters_scanned (h : op ∈ Language.scanned) :
    (∀ w ∈ Text.words op, (w.all fun c => !isWordSpace c) = true) ∧
      (1 < (Text.words op).length → op.toList.getLast?.any isAlpha = true) := by
  revert op
  decide

theorem ends_scanned (h : op ∈ Language.scanned) (letters : op.toList.all isNameChar = true) :
    op.toList.getLast?.any isAlpha = true := by
  revert op
  decide

@[simp] theorem endsWord_space (r : List Char) : endsWord (' ' :: r) = true := rfl

theorem endsWord_append_space (cs r : List Char) : endsWord (cs ++ ' ' :: r) = endsWord cs := by
  cases cs <;> rfl

theorem operatorLength?_after_space (op : String) (cs : List Char) (n : Nat) :
    operatorLength? op ⟨some ' ', cs, n⟩ = (matchWords? false (Text.words op) cs).bind fun size =>
      if op.toList.getLast?.any isAlpha && !endsWord (cs.drop size) then none else some size := by
  unfold operatorLength?
  cases matchWords? false (Text.words op) cs <;> simp

/-- Only an operator of two words, the first of which is written here, depends on what stands behind
the space. -/
theorem operatorLength?_append (h : op ∈ Language.scanned) (hℓ : ∀ c ∈ ℓ, isWordSpace c = false)
    (hr : ∀ c ∈ r.head?, isWordSpace c = false)
    (apart : ∀ v, Text.words op = [ℓ, v] → v.isPrefixOf r = true →
      endsWord (r.drop v.length) = false) :
    operatorLength? op ⟨some ' ', ℓ ++ ' ' :: r, n⟩ = operatorLength? op ⟨some ' ', ℓ, n⟩ := by
  obtain ⟨spaceless, ends⟩ := letters_scanned h
  rw [operatorLength?_after_space, operatorLength?_after_space]
  rcases words_scanned h with one | ⟨u, -, v, -, two, -⟩
  · rw [one, forall_mem_singleton] at spaceless
    rw [one, matchWords?_one, matchWords?_one, isPrefixOf_append_space spaceless]
    split
    · next found =>
      obtain ⟨t, rfl⟩ := List.isPrefixOf_iff_prefix.1 found
      simp [endsWord_append_space]
    · rfl
  · have ends := ends (by simp [two])
    rw [two, forall_mem_cons, forall_mem_singleton] at spaceless
    rw [two, matchWords?_two, matchWords?_two, isPrefixOf_append_space spaceless.1]
    split
    · next found =>
      obtain ⟨t, rfl⟩ := List.isPrefixOf_iff_prefix.1 found
      rw [append_assoc, drop_left, drop_left]
      cases t with
      | cons c t =>
        -- the word goes on, so there is no space before the second word
        have hc : isWordSpace c = false := hℓ c (by simp)
        rw [matchWords?_spaced _ (by simp [hc]), matchWords?_spaced _ (by simp [hc])]
        rfl
      | nil =>
        have apart := apart v.toList (by simpa using two)
        have ended : matchWords? true [v.toList] [] = none := matchWords?_spaced _ rfl
        rw [ended, nil_append, matchWords?_after_space v.toList hr]
        split
        · next second => simp [ends, apart second]
        · rfl
    · rfl

/-- What the operators make of a word with a space behind it is what they make of the word alone, unless
the word and what follows look like an operator of two words. -/
theorem match?_append (hℓ : ∀ c ∈ ℓ, isWordSpace c = false)
    (hr : ∀ c ∈ r.head?, isWordSpace c = false)
    (apart : ∀ op ∈ Language.scanned, ∀ v, Text.words op = [ℓ, v] → v.isPrefixOf r = true →
      endsWord (r.drop v.length) = false) :
    Language.scanned.match? ⟨some ' ', ℓ ++ ' ' :: r, n⟩ =
      Language.scanned.match? ⟨some ' ', ℓ, 0⟩ := by
  unfold Operators.match?
  have same : ∀ op ∈ Language.scanned, operatorLength? op ⟨some ' ', ℓ ++ ' ' :: r, n⟩ =
      operatorLength? op ⟨some ' ', ℓ, 0⟩ := fun op h => operatorLength?_append h hℓ hr (apart op h)
  revert same
  generalize Language.scanned = ops
  intro same
  induction ops with
  | nil => rfl
  | cons op ops ih =>
    rw [findSome?_cons, findSome?_cons, same op mem_cons_self,
      ih fun other hother => same other (mem_cons_of_mem _ hother)]

theorem match?_alone (h : op ∈ Language.scanned) (one : Text.words op = [op.toList]) :
    Language.scanned.match? ⟨some ' ', op.toList, 0⟩ = some (op, op.toList.length) := by
  revert op
  decide

theorem endsWord_of_isNameChar {c : Char} (hc : isNameChar c = true) (cs : List Char) :
    endsWord (c :: cs) = false := by
  rw [Bool.eq_false_iff]
  intro ends
  simp only [endsWord, isWordSpace, isTagSpace, Bool.or_eq_true, beq_iff_eq] at ends
  rcases ends with ((((((((rfl | rfl) | rfl) | rfl) | rfl) | rfl) | rfl) | rfl) | rfl) <;>
    exact absurd hc (by decide)

theorem isWordSpace_of_isNameChar {c : Char} (hc : isNameChar c = true) : isWordSpace c = false := by
  have ends := endsWord_of_isNameChar hc []
  simp only [endsWord, Bool.or_eq_false_iff] at ends
  exact ends.1.1.1.1

theorem cons_of_isName {name : String} (h : isName name = true) :
    ∃ c cs, name.toList = c :: cs ∧ isNameStart c = true ∧ ∀ d ∈ cs, isNameChar d = true := by
  unfold isName at h
  split at h
  · cases h
  · next c cs same =>
    obtain ⟨hc, hcs⟩ := Bool.and_eq_true_iff.1 h
    exact ⟨c, cs, same, hc, all_eq_true.1 hcs⟩

theorem forall_isNameChar {name : String} (h : isName name = true) :
    ∀ c ∈ name.toList, isNameChar c = true := by
  obtain ⟨c, cs, same, hc, hcs⟩ := cons_of_isName h
  rw [same, forall_mem_cons]
  exact ⟨by simp [isNameChar, hc], hcs⟩

theorem match?_name {name : String} (h : isName name = true) (free : name ∉ Language.scanned) :
    Language.scanned.match? ⟨some ' ', name.toList, 0⟩ = none := by
  have letters := forall_isNameChar h
  refine findSome?_eq_none_iff.2 fun op hop => ?_
  rw [operatorLength?_after_space, Option.map_eq_none_iff]
  rcases words_scanned hop with one | ⟨u, -, v, -, two, -⟩
  · rw [one, matchWords?_one]
    split
    · next found =>
      obtain ⟨t, ht⟩ := List.isPrefixOf_iff_prefix.1 found
      cases t with
      | nil =>
        have same : op = name := String.toList_inj.1 (by simpa using ht)
        exact absurd (same ▸ hop) free
      | cons d t =>
        -- the name goes on, and an operator of letters would have to end here
        have hd := endsWord_of_isNameChar (letters d (by simp [← ht])) t
        have alpha : op.toList.getLast?.any isAlpha = true :=
          ends_scanned hop (all_eq_true.2 fun c hc => letters c (by simp [← ht, hc]))
        simp [← ht, hd, alpha]
    · rfl
  · rw [two, matchWords?_two]
    split
    · next found =>
      obtain ⟨t, ht⟩ := List.isPrefixOf_iff_prefix.1 found
      rw [← ht, drop_left, matchWords?_spaced]
      · rfl
      · cases t with
        | nil => rfl
        | cons d t => simp [isWordSpace_of_isNameChar (letters d (by simp [← ht]))]
    · rfl

def startsValue (c : Char) : Bool := isDigit c || c == '\'' || c == '"'

/-- No operator starts with a digit or a quotation mark. -/
theorem match?_value {c : Char} (hc : startsValue c = true) (cs : List Char) :
    Language.scanned.match? ⟨some ' ', c :: cs, n⟩ = none := by
  have firsts : ∀ op ∈ Language.scanned, ((Text.words op).head?.any fun w => w.head?.any fun d =>
      !startsValue d) = true := by decide
  refine findSome?_eq_none_iff.2 fun op hop => ?_
  obtain ⟨w, hw, hfirst⟩ := (Option.any_eq_true _ _).1 (firsts op hop)
  obtain ⟨d, hd, differs⟩ := (Option.any_eq_true _ _).1 hfirst
  obtain ⟨ws, hwords⟩ := head?_eq_some_iff.1 hw
  obtain ⟨tail, rfl⟩ := head?_eq_some_iff.1 hd
  have other : (d == c) = false := by
    refine beq_false_of_ne fun same => ?_
    simp [same, hc] at differs
  rw [operatorLength?_after_space, hwords]
  simp [matchWords?, isPrefixOf_cons_cons, other]

theorem findSome?_of_mem {β : Type} {f : String → Option β} {a : String} {b : β} :
    ∀ {l : List String}, a ∈ l → f a = some b → (∀ x ∈ l.takeWhile (· != a), f x = none) →
      l.findSome? f = some b
  | x :: l, h, ha, before => by
    rw [findSome?_cons]
    by_cases same : x = a
    · rw [same, ha]
    · have hx : (x != a) = true := bne_iff_ne.2 same
      rw [takeWhile_cons, if_pos hx] at before
      rw [before x mem_cons_self]
      exact findSome?_of_mem ((mem_cons.1 h).resolve_left (Ne.symm same)) ha
        fun y hy => before y (mem_cons_of_mem _ hy)

theorem operatorLength?_own {u v : String} (hv : v ∈ ["with", "not", "in"])
    (two : Text.words op = [u.toList, v.toList]) (whole : op.toList = u.toList ++ ' ' :: v.toList) :
    operatorLength? op ⟨some ' ', op.toList ++ ' ' :: r, n⟩ = some op.toList.length := by
  have second : ∀ c ∈ (v.toList ++ ' ' :: r).head?, isWordSpace c = false := by
    have first : ∀ v ∈ ["with", "not", "in"], v.toList.head?.any (!isWordSpace ·) = true := by
      decide
    obtain ⟨c, hc, other⟩ := (Option.any_eq_true _ _).1 (first v hv)
    obtain ⟨tail, htail⟩ := head?_eq_some_iff.1 hc
    simpa [htail] using other
  rw [operatorLength?_after_space, two, matchWords?_two, whole, append_assoc, cons_append,
    if_pos (by simp), drop_left, matchWords?_after_space _ second, if_pos (by simp)]
  simp

/-- An operator stands where it is written, unless it and what follows look like a longer one. -/
theorem match?_operator (h : op ∈ Language.scanned) (hr : ∀ c ∈ r.head?, isWordSpace c = false)
    (apart : ∀ other ∈ Language.scanned, ∀ v, Text.words other = [op.toList, v] →
      v.isPrefixOf r = true → endsWord (r.drop v.length) = false) :
    Language.scanned.match? ⟨some ' ', op.toList ++ ' ' :: r, n⟩ =
      some (op, op.toList.length) := by
  rcases words_scanned h with one | ⟨u, -, v, hv, two, whole⟩
  · have solid := (letters_scanned h).1 op.toList (by simp [one])
    rw [match?_append (fun c hc => by simpa using all_eq_true.1 solid c hc) hr apart,
      match?_alone h one]
  · -- the operators that are tried before this one begin with another word
    have before : ∀ op ∈ Language.scanned, 1 < (Text.words op).length →
        (Language.scanned.takeWhile (· != op)).all (fun other =>
          (Text.words other).head?.all fun w => !w.isPrefixOf op.toList) = true := by
      decide
    have before := all_eq_true.1 (before op h (by simp [two]))
    refine findSome?_of_mem h ?_ fun other hother => ?_
    · rw [operatorLength?_own hv two whole]
      rfl
    · rw [operatorLength?_after_space]
      have hscanned := takeWhile_sublist _ |>.mem hother
      have first : ∃ w ws, Text.words other = w :: ws := by
        rcases words_scanned hscanned with one | ⟨_, -, _, -, two, -⟩
        · exact ⟨_, _, one⟩
        · exact ⟨_, _, two⟩
      obtain ⟨w, ws, hwords⟩ := first
      have missing : w.isPrefixOf op.toList = false := by
        simpa [hwords] using before other hother
      have solid := (letters_scanned hscanned).1 w (by simp [hwords])
      simp [hwords, matchWords?, isPrefixOf_append_space solid, missing]

theorem match?_mark {c : Char} (hc : isMark c = true) :
    Language.scanned.match? ⟨some ' ', [c], 0⟩ = none := by
  have marks : ("()[]\x7b\x7d?:.,|".toList.all fun c =>
      (Language.scanned.match? ⟨some ' ', [c], 0⟩).isNone) = true := by decide
  exact Option.isNone_iff_eq_none.1 (all_eq_true.1 marks c (contains_iff_mem.1 hc))

end Operators

/-! ## Strings -/

section Strings

variable {special : List Char}

theorem escape_cons (special : List Char) (c : Char) (cs : List Char) :
    escape special (c :: cs) = (if c ∈ special then ['\\', c] else [c]) ++ escape special cs := rfl

theorem unescape_cons {c : Char} (hc : c ≠ '\\') (cs : List Char) :
    unescape (c :: cs) = c :: unescape cs := by
  cases cs <;> simp [unescape, hc]

theorem unescape_escape (backslash : '\\' ∈ special) (plain : ∀ c ∈ special, escaped c = c)
    (cs : List Char) : unescape (escape special cs) = cs := by
  induction cs with
  | nil => rfl
  | cons c cs ih =>
    rw [escape_cons]
    split
    · next hc => rw [cons_append, singleton_append, unescape, plain c hc, ih]
    · next hc =>
      have hc : c ≠ '\\' := fun same => hc (same ▸ backslash)
      rw [singleton_append, unescape_cons hc, ih]

/-- Inside a string nothing that ends it, or interrupts it, is written without a backslash. -/
theorem stringBody?_escape {quote : Char} {interpolated : Bool} (backslash : '\\' ∈ special)
    (hquote : quote ∈ special) (hash : interpolated = true → '#' ∈ special) (cs : List Char)
    {r : List Char} (hr : r ≠ []) :
    stringBody? quote interpolated (escape special cs ++ r) =
      (stringBody? quote interpolated r).map (escape special cs ++ ·) := by
  induction cs with
  | nil => simp [escape]
  | cons c cs ih =>
    rw [escape_cons]
    split
    · simp [stringBody?, ih, Function.comp_def]
    · next hc =>
      have other : ∀ d ∈ special, c ≠ d := by
        rintro d hd rfl
        exact hc hd
      have more : escape special cs ++ r ≠ [] := append_ne_nil_of_right_ne_nil _ hr
      obtain ⟨d, rest, hrest⟩ := exists_cons_of_ne_nil more
      have plain : (interpolated && c == '#' && d == '{') = false := by
        cases interpolated with
        | false => rfl
        | true => simp [other '#' (hash rfl)]
      rw [hrest] at ih
      simp [hrest, stringBody?, other _ backslash, other _ hquote, plain, ih, Function.comp_def]

theorem stringPart_escape (backslash : '\\' ∈ special) (hquote : '"' ∈ special)
    (hash : '#' ∈ special) (cs : List Char) {r : List Char} (hr : stringPart r = [])
    (more : r ≠ []) : stringPart (escape special cs ++ r) = escape special cs := by
  induction cs with
  | nil => simpa [escape] using hr
  | cons c cs ih =>
    rw [escape_cons]
    split
    · simp [stringPart, ih]
    · next hc =>
      have other : ∀ d ∈ special, c ≠ d := by
        rintro d hd rfl
        exact hc hd
      obtain ⟨d, rest, hrest⟩ := exists_cons_of_ne_nil
        (append_ne_nil_of_right_ne_nil (escape special cs) more)
      rw [hrest] at ih
      simp [hrest, stringPart, other _ backslash, other _ hquote, other _ hash, ih]

theorem hasInterpolation_append (cs r : List Char) :
    hasInterpolation (cs ++ '#' :: '{' :: r) = true := by
  induction cs with
  | nil => rfl
  | cons c cs ih =>
    rw [cons_append]
    unfold hasInterpolation
    split
    · rfl
    · next same => cases same; exact ih
    · next same => cases same

end Strings
/-! ## Numbers -/

theorem cons_of_numeral (n : Source.Numeral) : ∃ c t, n.write = c :: t ∧ isDigit c = true := by
  obtain ⟨c, cs, hwhole⟩ := exists_cons_of_ne_nil n.some
  have digit : isDigit c = true := n.digits c (by simp [hwhole])
  rw [Source.Numeral.write, hwhole]
  exact ⟨c, _, rfl, digit⟩

theorem numberLength_write (n : Source.Numeral) (r : List Char) :
    numberLength (n.write ++ ' ' :: r) = n.write.length := by
  have whole : ∀ c ∈ n.whole, isDigit c = true := fun c hc =>
    n.digits c (mem_append_left _ hc)
  have fraction : ∀ c ∈ n.fraction, isDigit c = true := fun c hc =>
    n.digits c (mem_append_right _ hc)
  have space : isDigit ' ' = false := by decide
  have point : isDigit '.' = false := by decide
  unfold numberLength Source.Numeral.write
  rw [append_assoc, takeWhile_append_of_pos whole]
  cases hfraction : n.fraction with
  | nil => simp [space]
  | cons d ds =>
    rw [hfraction] at fraction
    have hds : ((ds ++ ' ' :: r).takeWhile isDigit) = ds := by
      rw [takeWhile_append_of_pos fun c hc => fraction c (mem_cons_of_mem _ hc)]
      simp [space]
    simp [point, fraction d mem_cons_self, hds]
    omega

/-! ## Line breaks -/

section Breaks

variable {a b cs : List Char}

theorem normalize_cons {c : Char} (h : c = '\r' → cs.head? ≠ some '\n') :
    normalize (c :: cs) = c :: normalize cs := by
  cases cs with
  | nil => simp [normalize]
  | cons d cs =>
    by_cases hc : c = '\r'
    · have hd : d ≠ '\n' := by simpa using h hc
      simp [normalize, hd]
    · simp [normalize, hc]

/-- Where a line break is not cut in two, the parts of a text can be looked at one by one. -/
theorem normalize_append (h : a.getLast? = some '\r' → b.head? ≠ some '\n') :
    normalize (a ++ b) = normalize a ++ normalize b := by
  fun_induction normalize a with
  | case1 rest ih =>
    rw [cons_append, cons_append, normalize, ih fun last => h (by simp [getLast?_cons, last]),
      cons_append]
  | case2 c rest single ih =>
    rw [cons_append, normalize_cons, ih fun last => h (by simp [getLast?_cons, last]), cons_append]
    rintro rfl
    cases rest with
    | nil => exact h rfl
    | cons d rest =>
      intro same
      cases same
      exact single rest rfl rfl
  | case3 => rfl

theorem normalize_of_unbroken (h : ¬ ['\r', '\n'] <:+: cs) : normalize cs = cs := by
  fun_induction normalize cs with
  | case1 rest => exact absurd (prefix_append ['\r', '\n'] rest).isInfix h
  | case2 c rest single ih => rw [ih fun inner => h (inner.trans (suffix_cons c rest).isInfix)]
  | case3 => rfl

theorem normalize_of_not_mem (h : '\r' ∉ cs) : normalize cs = cs :=
  normalize_of_unbroken fun inner => h (inner.mem mem_cons_self)

/-- What is escaped has no line breaks of two characters that it did not have. -/
theorem normalize_escape {special : List Char} (plain : '\r' ∉ special)
    (h : ¬ ['\r', '\n'] <:+: cs) : normalize (escape special cs) = escape special cs := by
  induction cs with
  | nil => rfl
  | cons c cs ih =>
    have ih := ih fun inner => h (inner.trans (suffix_cons c cs).isInfix)
    rw [escape_cons]
    split
    · next hc =>
      have hc : c ≠ '\r' := fun same => plain (same ▸ hc)
      rw [cons_append, singleton_append, normalize_cons (by simp),
        normalize_cons fun same => absurd same hc, ih]
    · rw [singleton_append, normalize_cons, ih]
      rintro rfl
      cases cs with
      | nil => exact nofun
      | cons d cs =>
        have hd : d ≠ '\n' := by
          rintro rfl
          exact h (prefix_append ['\r', '\n'] cs).isInfix
        rw [escape_cons]
        split <;> simp [hd]

end Breaks

/-! ## Comments and text -/

section Plain

variable {a cs : List Char}

/-- Making line breaks plain brings no two characters together that end a comment. -/
theorem not_infix_normalize (h : ¬ ['#', '}'] <:+: cs) : ¬ ['#', '}'] <:+: normalize cs := by
  have head : ∀ {cs t : List Char}, normalize cs = '}' :: t → ∃ t, cs = '}' :: t := by
    intro cs t same
    fun_cases normalize cs with
    | case1 rest => simp [normalize] at same
    | case2 c rest single =>
      rw [normalize_cons fun hc hrest => ?_] at same
      · exact ⟨rest, by rw [(List.cons.inj same).1]⟩
      · obtain ⟨t, rfl⟩ := head?_eq_some_iff.1 hrest
        exact single t hc rfl
    | case3 => cases same
  fun_induction normalize cs with
  | case1 rest ih =>
    rw [infix_cons_iff]
    rintro (first | later)
    · simp at first
    · refine ih (fun inner => h ?_) later
      exact inner.trans (suffix_append ['\r', '\n'] rest).isInfix
  | case2 c rest single ih =>
    rw [infix_cons_iff]
    rintro (⟨t, ht⟩ | later)
    · injection ht with hc ht
      obtain ⟨u, rfl⟩ := head ht.symm
      exact h (hc ▸ (prefix_append ['#', '}'] u).isInfix)
    · exact ih (fun inner => h (inner.trans (suffix_cons c rest).isInfix)) later
  | case3 => exact h

theorem commentLength?_append (h : ¬ ['#', '}'] <:+: cs) {d : Char} (hd : d ≠ '}')
    (r : List Char) :
    commentLength? (cs ++ d :: r) = (commentLength? (d :: r)).map (cs.length + ·) := by
  induction cs with
  | nil => simp
  | cons c cs ih =>
    have ih := ih fun inner => h (inner.trans (suffix_cons c cs).isInfix)
    rw [cons_append, commentLength?, ih, Option.map_map]
    · congr 1
      funext n
      simp
      omega
    · rintro t rfl same
      cases cs with
      | nil => exact hd (List.cons.inj same).1
      | cons e cs =>
        obtain ⟨rfl, -⟩ := List.cons.inj same
        exact h (prefix_append ['#', '}'] cs).isInfix

theorem plainText_append (h : '{' ∉ cs) (r : List Char) :
    plainText (cs ++ r) = cs ++ plainText r := by
  induction cs with
  | nil => rfl
  | cons c cs ih =>
    rw [mem_cons, not_or] at h
    obtain ⟨hc, h⟩ := h
    have plain : startsDelimiter (c :: (cs ++ r)) = false := by
      unfold startsDelimiter
      split
      · next same => exact absurd (List.cons.inj same).1.symm hc
      · rfl
    rw [cons_append, plainText, if_neg (by simp [plain]), ih h, cons_append]

end Plain
end Stencil.Scanner
