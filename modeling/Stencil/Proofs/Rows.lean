import Mathlib.Algebra.Group.Nat.Defs
import Stencil.Proofs.Sorts

/-!
# Expressions are written on one row

Whatever strings an expression holds, it is written without a line break: strings are quoted, and
quotation marks keep the text between them on one line (`oneLine_quoted`). Nor does an expression end
as a row does that opens something (`Closed`). Reading such a literal as a program is read gives the
string back (`Text.readQuoted_quoted`).

`Adds` says of a change to a writer that it goes on where the text ended, or fails. It is one of the
properties that pass from words and quoted texts on to whole expressions (`Listing.Composes`), and
`Listing.Composes.write` goes through the kinds of expressions once, for all such properties.
-/

namespace Stencil

open List

/-! ## Texts on one line -/

instance (s : String) : Decidable (OneLine s) := inferInstanceAs (Decidable ('\n' ∉ s.toList))

variable {s t : String}

theorem oneLine_append (hs : OneLine s) (ht : OneLine t) : OneLine (s ++ t) := by
  rw [OneLine, String.toList_append, mem_append]
  exact fun h => h.elim hs ht

/-- A text on one line that does not end as a row does that opens a suite or a table. -/
structure Closed (s : String) : Prop where
  oneLine : OneLine s
  colon : s.toList.getLast? ≠ some ':'
  brace : s.toList.getLast? ≠ some '{'

instance (s : String) : Decidable (Closed s) :=
  decidable_of_iff (OneLine s ∧ s.toList.getLast? ≠ some ':' ∧ s.toList.getLast? ≠ some '{')
    ⟨fun h => ⟨h.1, h.2.1, h.2.2⟩, fun h => ⟨h.1, h.2, h.3⟩⟩

/-- A text that ends like that and is not empty. -/
structure Shut (s : String) : Prop extends Closed s where
  filled : s.toList ≠ []

instance (s : String) : Decidable (Shut s) :=
  decidable_of_iff (Closed s ∧ s.toList ≠ []) ⟨fun h => ⟨h.1, h.2⟩, fun h => ⟨h.1, h.2⟩⟩

theorem getLast?_append_of_some (h : t.toList ≠ []) :
    (s ++ t).toList.getLast? = t.toList.getLast? := by
  rw [String.toList_append, getLast?_append]
  cases last : t.toList.getLast? with
  | none => exact absurd (getLast?_eq_none_iff.1 last) h
  | some c => rfl

theorem Shut.append (hs : OneLine s) (ht : Shut t) : Shut (s ++ t) where
  oneLine := oneLine_append hs ht.oneLine
  colon := by rw [getLast?_append_of_some ht.filled]; exact ht.colon
  brace := by rw [getLast?_append_of_some ht.filled]; exact ht.brace
  filled := by
    rw [String.toList_append]
    exact fun h => ht.filled (append_eq_nil_iff.1 h).2

theorem Closed.append (hs : Closed s) (ht : Closed t) : Closed (s ++ t) := by
  by_cases some : t.toList = []
  · rw [String.toList_eq_nil_iff.1 some, String.append_empty]
    exact hs
  · exact (Shut.append hs.oneLine ⟨ht, some⟩).toClosed

theorem Shut.append_closed (hs : Shut s) (ht : Closed t) : Shut (s ++ t) := by
  refine ⟨hs.toClosed.append ht, ?_⟩
  rw [String.toList_append]
  exact fun none => hs.filled (append_eq_nil_iff.1 none).1

theorem not_mem_of_all_ne (h : ∀ c ∈ s.toList, c ∉ ['\n', ':', '{']) : Closed s := by
  have last {c : Char} (found : s.toList.getLast? = some c) : c ∉ ['\n', ':', '{'] :=
    h c (mem_of_getLast? found)
  refine ⟨fun there => h _ there (by decide), fun found => ?_, fun found => ?_⟩
  · exact last found (by decide)
  · exact last found (by decide)

theorem numeric_closed : Numeric (· ∉ ['\n', ':', '{']) where
  digit c hc h := by
    simp only [mem_cons, not_mem_nil, or_false] at h
    rcases h with rfl | rfl | rfl <;> cases hc
  point := by decide
  minus := by decide
  plus := by decide

theorem closed_int (i : Int) : Closed (toString i) := not_mem_of_all_ne (numeric_closed.int i)

theorem closed_floatLiteral (f : Float) : Closed (Writer.floatLiteral f) := by
  have general : Closed (Decimal.general f) := by
    unfold Decimal.general
    split
    · decide
    · split
      · split
        · decide
        · decide
      · exact not_mem_of_all_ne
          (numeric_closed.signed _ (numeric_closed.chars (by decide) (numeric_closed.shortest f)))
  unfold Writer.floatLiteral
  dsimp only
  split
  · exact general
  · exact general.append (by decide)

/-! ### Quotation marks -/

theorem newline_not_mem_hexDigits (width n : Nat) : '\n' ∉ Text.hexDigits width n := by
  have digit : ∀ n : Fin 16, Text.hexDigit n ≠ '\n' := by decide
  induction width generalizing n with
  | zero => exact not_mem_nil
  | succ width ih =>
    rw [Text.hexDigits, mem_append, mem_singleton]
    rintro (h | h)
    · exact ih _ h
    · exact digit ⟨n % 16, Nat.mod_lt _ (by decide)⟩ h.symm

theorem isPrintable_newline : Text.isPrintable '\n' = false := by decide +kernel

theorem newline_not_mem_quotedChar (c : Char) : '\n' ∉ Text.quotedChar c := by
  unfold Text.quotedChar
  split
  · decide
  · split
    · decide
    · split
      · next shown =>
        intro h
        rw [← mem_singleton.1 h, isPrintable_newline] at shown
        cases shown
      · have escape (x : Char) (width n : Nat) (hx : '\n' ≠ x) :
            '\n' ∉ '\\' :: x :: Text.hexDigits width n := by
          rw [mem_cons, mem_cons]
          rintro (h | h | h)
          · exact absurd h (by decide)
          · exact hx h
          · exact newline_not_mem_hexDigits _ _ h
        split
        · decide
        · decide
        · decide
        · decide
        · decide
        · decide
        · decide
        · split
          · exact escape _ _ _ (by decide)
          · split
            · exact escape _ _ _ (by decide)
            · exact escape _ _ _ (by decide)

theorem oneLine_quoted (s : String) : OneLine (Text.quoted s) := by
  rw [OneLine, Text.quoted, String.toList_ofList, Text.quotedChars, mem_cons, mem_append,
    mem_singleton, mem_flatMap]
  rintro (h | ⟨c, -, h⟩ | h)
  · exact absurd h (by decide)
  · exact newline_not_mem_quotedChar c h
  · exact absurd h (by decide)

theorem shut_quoted (s : String) : Shut (Text.quoted s) := by
  have last : (Text.quoted s).toList.getLast? = some '"' := by
    rw [Text.quoted, String.toList_ofList, Text.quotedChars, ← cons_append,
      getLast?_concat]
  refine ⟨⟨oneLine_quoted s, ?_, ?_⟩, fun none => ?_⟩
  · rw [last]; decide
  · rw [last]; decide
  · rw [none] at last
    cases last

/-! ### What a quoted text denotes -/

namespace Text

/-- The letters that stand for one character when they follow a backslash. -/
def escapeLetters : List (Char × Char) :=
  [('"', '"'), ('\\', '\\'), ('a', Char.ofNat 7), ('b', Char.ofNat 8), ('f', Char.ofNat 12), ('n', '\n'),
    ('r', '\r'), ('t', '\t'), ('v', Char.ofNat 11)]

/-- The letters that stand for the number of a character, with how many digits it has. -/
def escapeWidths : List (Char × Nat) := [('x', 2), ('u', 4), ('U', 8)]

def hexValue (c : Char) : Nat := if c.toNat < 58 then c.toNat - 48 else c.toNat - 87

def readHex (ds : List Char) : Nat := ds.foldl (fun n d => n * 16 + hexValue d) 0

/-- Reads a literal from behind its first quotation mark: the text that it denotes, and what follows
its last one. -/
def readQuoted (cs : List Char) : Option (List Char × List Char) :=
  match cs with
  | [] => none
  | c :: rest =>
    if c = '"' then some ([], rest)
    else if c = '\\' then
      match rest with
      | [] => none
      | letter :: rest =>
        match escapeLetters.lookup letter, escapeWidths.lookup letter with
        | some c, _ => (readQuoted rest).map (Prod.map (c :: ·) id)
        | none, some width =>
          (readQuoted (rest.drop width)).map (Prod.map (Char.ofNat (readHex (rest.take width)) :: ·) id)
        | none, none => none
    else (readQuoted rest).map (Prod.map (c :: ·) id)
termination_by cs.length
decreasing_by all_goals simp_wf <;> omega

theorem hexValue_hexDigit : ∀ n : Fin 16, hexValue (hexDigit n) = n := by decide

theorem length_hexDigits (width n : Nat) : (hexDigits width n).length = width := by
  induction width generalizing n with
  | zero => rfl
  | succ width ih => rw [hexDigits, length_append, ih, length_singleton]

theorem readHex_hexDigits (width n : Nat) : readHex (hexDigits width n) = n % 16 ^ width := by
  induction width generalizing n with
  | zero => rw [Nat.pow_zero, Nat.mod_one]; rfl
  | succ width ih =>
    have digit : hexValue (hexDigit (n % 16)) = n % 16 :=
      hexValue_hexDigit ⟨n % 16, Nat.mod_lt _ (by decide)⟩
    have before : readHex (hexDigits width (n / 16)) = n / 16 % 16 ^ width := ih _
    rw [readHex] at before
    rw [hexDigits, readHex, foldl_append, before, foldl_cons, foldl_nil, digit, Nat.pow_succ',
      Nat.mod_mul]
    omega

theorem readQuoted_letter {letter c : Char} (h : escapeLetters.lookup letter = some c)
    (r : List Char) :
    readQuoted ('\\' :: letter :: r) = (readQuoted r).map (Prod.map (c :: ·) id) := by
  rw [readQuoted.eq_def]
  simp only [h]
  rfl

theorem readQuoted_digits {letter c : Char} {width : Nat} (h : (letter, width) ∈ escapeWidths)
    (fits : c.toNat < 16 ^ width) (r : List Char) :
    readQuoted ('\\' :: letter :: (hexDigits width c.toNat ++ r)) =
      (readQuoted r).map (Prod.map (c :: ·) id) := by
  have known : ∀ pair ∈ escapeWidths, escapeLetters.lookup pair.1 = none ∧
      escapeWidths.lookup pair.1 = some pair.2 := by decide
  have found := known _ h
  rw [readQuoted.eq_def]
  simp only [found.1, found.2]
  rw [drop_left' (length_hexDigits ..), take_left' (length_hexDigits ..), readHex_hexDigits,
    Nat.mod_eq_of_lt fits, Char.ofNat_toNat]
  rfl

theorem readQuoted_quotedChar (c : Char) (r : List Char) :
    readQuoted (quotedChar c ++ r) = (readQuoted r).map (Prod.map (c :: ·) id) := by
  unfold quotedChar
  split
  · next is =>
    subst is
    exact readQuoted_letter rfl r
  split
  · next is =>
    subst is
    exact readQuoted_letter rfl r
  split
  · next other mark _ =>
    rw [singleton_append, readQuoted.eq_def]
    simp only [other, mark, if_false]
  -- what is left is written by its number, or by a letter that stands for it
  have control {n : Nat} {letter : Char} (is : c.toNat = n)
      (h : escapeLetters.lookup letter = some (Char.ofNat n)) :
      readQuoted (['\\', letter] ++ r) = (readQuoted r).map (Prod.map (c :: ·) id) := by
    rw [← is, Char.ofNat_toNat] at h
    exact readQuoted_letter h r
  split
  · next is => exact control is rfl
  · next is => exact control is rfl
  · next is => exact control is rfl
  · next is => exact control is rfl
  · next is => exact control is rfl
  · next is => exact control is rfl
  · next is => exact control is rfl
  · have small : c.toNat < 16 ^ 8 := c.val.toNat_lt
    split
    · next low => exact readQuoted_digits (by decide) (Nat.lt_trans low (by decide)) r
    split
    · next low => exact readQuoted_digits (by decide) low r
    · exact readQuoted_digits (by decide) small r

/-- **A quoted text denotes the text.** -/
theorem readQuoted_quoted (s : String) :
    ∃ literal, (quoted s).toList = '"' :: literal ∧ readQuoted literal = some (s.toList, []) := by
  refine ⟨s.toList.flatMap quotedChar ++ ['"'], by rw [quoted, String.toList_ofList, quotedChars], ?_⟩
  induction s.toList with
  | nil => rw [flatMap_nil, nil_append, readQuoted.eq_def]; rfl
  | cons c cs ih =>
    rw [flatMap_cons, append_assoc, readQuoted_quotedChar, ih]
    rfl

end Text
/-! ## Faults -/

namespace Node

def probeable : List Kind := [.ident, .getAttr, .constant, .stringConstant, .array, .hash]

/-- Whether a node asks whether something is defined of what that cannot be asked of. -/
def misused (n : Node) : Bool :=
  n.kind == .test && n.text "name" == "defined" && !probeable.contains (n.child 0).kind

/-- What can go wrong while a node is written, apart from its children. -/
inductive Fault (n : Node) (template : String) : Failure → Prop
  | misused (h : n.misused = true) : Fault n template (.malformed .definedOperand template n.line)
  | incomplete {text : String} (there : n.isAbsent = false) (h : n.complete = false) :
    Fault n template (.plain text)

end Node

/-! ## Properties of written expressions -/

namespace Listing

open Writer

/-- A piece is written with a property, and so are all pieces below it. -/
inductive Piece.Each (R : Emit → Prop) : Piece → Prop
  | piece {n : Node} {write : Care → Emit} {parts : List Piece} (writes : ∀ care, R (write care))
    (below : ∀ p ∈ parts, Each R p) : Each R (.piece n write parts)

/-- A property of changes to a writer that expressions have if their parts do. -/
structure Composes (R : Emit → Prop) : Prop where
  skip : R id
  raw {s : String} (closed : Closed s) : R (raw s)
  all {es : List Emit} (h : ∀ e ∈ es, R e) : R (all es)
  /-- A brace that is closed again. -/
  braced {e : Emit} (h : R e) : R (Writer.all [Writer.raw "], \x7b", e, Writer.raw "\x7d"])
  emitWith {p : Piece} (h : p.Each R) (care : Care) : R (p.emitWith care)

variable {R : Emit → Prop} {p operand args : Piece} {ps : List Piece} {n : Node}

namespace Piece

theorem Each.parts (h : p.Each R) : ∀ q ∈ p.parts, q.Each R := by
  cases h with
  | piece _ below => exact below

end Piece

namespace Composes

variable (hR : Composes R)
include hR

theorem emit (h : p.Each R) : R p.emit := hR.emitWith h .strict

theorem each_getD (h : ∀ p ∈ ps, p.Each R) (i : Nat) : ((ps[i]?).getD Piece.none).Each R := by
  cases found : ps[i]? with
  | none => exact .piece (fun _ => hR.skip) (forall_mem_nil _)
  | some p => exact h p (mem_of_getElem? found)

theorem part (h : p.Each R) (i : Nat) : (p.part i).Each R := hR.each_getD h.parts i

theorem string (s : String) : R (string s) := hR.raw (shut_quoted s).toClosed

theorem separated : ∀ {ps : List Piece}, (∀ p ∈ ps, p.Each R) → R (separated ps)
  | [], _ => hR.skip
  | [p], h => hR.emit (h p mem_cons_self)
  | p :: q :: ps, h => by
    obtain ⟨hp, hps⟩ := forall_mem_cons.1 h
    exact hR.all (by simp +decide [hR.raw, hR.emit hp, separated hps])

theorem pairs : ∀ {ps : List Piece}, (∀ p ∈ ps, p.Each R) → R (pairs ps)
  | [], _ => hR.skip
  | [_], _ => hR.skip
  | key :: value :: rest, h => by
    obtain ⟨hkey, hvalue, hrest⟩ := (forall_mem_cons.1 h).imp id forall_mem_cons.1
    have pair : R (Writer.all [Writer.raw "(", key.emit, Writer.raw ", ", value.emit, Writer.raw ")"]) :=
      hR.all (by simp +decide [hR.raw, hR.emit hkey, hR.emit hvalue])
    unfold Listing.pairs
    dsimp only
    split
    · exact hR.all (by simp +decide [hR.raw, pair, pairs hrest])
    · exact pair

theorem named : ∀ {ps : List Piece}, (∀ p ∈ ps, p.Each R) → R (named ps)
  | [], _ => hR.skip
  | [p], h => by
    have value := hR.emit (hR.part (h p mem_cons_self) 0)
    exact hR.all (by simp +decide [hR.raw, hR.string, value])
  | p :: q :: ps, h => by
    obtain ⟨hp, hps⟩ := forall_mem_cons.1 h
    have value := hR.emit (hR.part hp 0)
    exact hR.all (by simp +decide [hR.raw, hR.string, value, named hps])

theorem arguments (h : p.Each R) : R (arguments p) := by
  have positional := hR.separated fun a (ha : a ∈ p.parts.filter fun a => !isNamed a) =>
    h.parts a (mem_filter.1 ha).1
  -- the brace alone would not be closed, so the named arguments are taken together with both
  have given := hR.braced (hR.named fun a (ha : a ∈ p.parts.filter isNamed) =>
    h.parts a (mem_filter.1 ha).1)
  show R (Writer.all [Writer.raw "[", Listing.separated _, Writer.all [Writer.raw "], \x7b", Listing.named _,
    Writer.raw "\x7d"]])
  exact hR.all (by simp +decide [hR.raw, positional, given])

theorem flagWord (b : Bool) : R (flagWord b) := by
  cases b with
  | true | false => exact hR.raw (by decide)

theorem lineEnd (line : Int) : R (lineEnd line) :=
  hR.raw (Shut.append (oneLine_append (by decide) (closed_int line).oneLine) (by decide)).toClosed

theorem reading (n : Node) (care : Care) : R (reading n care) := by
  unfold Listing.reading
  dsimp only
  split
  · exact hR.raw (by decide)
  · split
    · exact hR.all (by simp +decide [hR.raw, hR.string])
    · exact hR.all (by simp +decide [hR.raw, hR.string, hR.flagWord, hR.lineEnd])

variable (faults : ∀ f : String → Failure, (∀ template, n.Fault template (f template)) →
  R fun w => fail (f w.template) w)
include faults

theorem test (hoperand : operand.Each R) (hargs : args.Each R) (kind : n.kind = .test)
    (same : operand.node = n.child 0) : R (test n operand args) := by
  unfold Listing.test
  dsimp only
  split
  · next defined =>
    rw [same]
    split
    · exact hR.emitWith hoperand _
    · exact hR.emitWith hoperand _
    · exact hR.raw (by decide)
    · exact hR.raw (by decide)
    · exact hR.raw (by decide)
    · exact hR.raw (by decide)
    · next ident getAttr constant stringConstant array hash =>
      refine faults (fun template => .malformed .definedOperand template n.line) fun _ => .misused ?_
      unfold Node.misused Node.probeable
      rw [kind, defined]
      grind
  · exact hR.all (by
      simp +decide [hR.raw, hR.string, hR.emit hoperand, hR.arguments hargs, hR.lineEnd])

theorem literal (there : n.isAbsent = false) (kind : n.kind = .constant) :
    R (literal ((n.attr? "value").getD .null)) := by
  cases value : (n.attr? "value").getD .null with
  | null => exact hR.raw (by decide)
  | bool b => exact hR.flagWord b
  | int i => exact hR.raw (closed_int i)
  | float f => exact hR.raw (closed_floatLiteral f)
  | text s => exact hR.string s
  | foreign typeName =>
    refine faults (fun _ => .plain _) fun _ => .incomplete there (Bool.eq_false_iff.2 fun complete => ?_)
    exact Node.constant_of_complete complete kind typeName value

/-- **Expressions have the property if their parts have it.** -/
theorem write (there : n.isAbsent = false) (sort : n.kind.isStatement = false)
    (h : ∀ p ∈ ps, p.Each R) (first : ((ps[0]?).getD Piece.none).node = n.child 0) (care : Care) :
    R (write n ps care) := by
  have part := hR.each_getD h
  have emit := fun i => hR.emit (part i)
  have whole : Piece.Each R (.piece n (fun _ w => w) ps) := .piece (fun _ => hR.skip) h
  unfold Listing.write
  cases kind : n.kind with
  | module | body | text | print | loop | loopEnd | branch | block | blockReference | assign
  | inclusion =>
    rw [kind] at sort
    cases sort
  | constant => exact hR.literal faults there kind
  | stringConstant => exact hR.string _
  | ident => exact hR.reading n care
  | getAttr =>
    exact hR.all (by simp +decide [hR.raw, hR.string, hR.emitWith (part 0), emit,
      hR.separated (part 2).parts, hR.flagWord, hR.lineEnd])
  | array => exact hR.all (by simp +decide [hR.raw, hR.separated h])
  | hash => exact hR.all (by simp +decide [hR.raw, hR.pairs h])
  | arguments => exact hR.arguments whole
  | namedArgument => exact emit 0
  | filter =>
    exact hR.all (by simp +decide [hR.raw, hR.string, hR.emitWith (part 0), hR.arguments (part 1),
      hR.lineEnd])
  | call => exact hR.all (by simp +decide [hR.raw, hR.string, hR.arguments (part 0), hR.lineEnd])
  | test => exact hR.test faults (part 0) (part 1) kind first
  | invalid | other =>
    exact faults (fun _ => .plain _) fun _ => .incomplete there (by unfold Node.complete; rw [kind]; rfl)
  | _ => exact hR.all (by simp +decide [hR.raw, hR.string, emit])

end Composes

theorem lowerAll_eq_map (ns : List Node) : lowerAll ns = ns.map lower := by
  induction ns with
  | nil => rfl
  | cons n ns ih => rw [lowerAll, ih, map_cons]

theorem forall_lowerAll {P : Piece → Prop} {children : List Node} (h : ∀ n ∈ children, P (lower n)) :
    ∀ p ∈ lowerAll children, P p := by
  rw [lowerAll_eq_map]
  exact forall_mem_map.2 h

theorem node_lower (n : Node) : (lower n).node = n := by
  cases n with
  | absent | node => rfl

theorem node_first (children : List Node) :
    ((lowerAll children)[0]?.getD Piece.none).node = (children[0]?).getD .absent := by
  cases children with
  | nil => rfl
  | cons c rest => exact node_lower c

end Listing

/-! ## Going on where the text ended -/

def Writer.add (w : Writer) (s : String) : Writer := { w with text := w.text ++ s }

/-- A change that does nothing once something has failed. -/
def Sticky (e : Emit) : Prop := ∀ w : Writer, w.failure.isSome = true → e w = w

theorem Sticky.seq {e f : Emit} (he : Sticky e) (hf : Sticky f) : Sticky fun w => f (e w) := by
  intro w failed
  show f (e w) = w
  rw [he w failed, hf w failed]

/-- A change that goes on where the text ended, with a text that has a property, or that fails. -/
structure Adds (P : String → Prop) (e : Emit) : Prop where
  sticky : Sticky e
  added : ∀ w : Writer, w.failure = none →
    (e w).failure.isSome = true ∨ ∃ s, P s ∧ e w = w.add s

/-- A property of the end of a text: it does not matter what stands before on the same line. -/
class Trailing (P : String → Prop) : Prop where
  append : ∀ {s t : String}, OneLine s → P t → P (s ++ t)

instance : Trailing OneLine := ⟨oneLine_append⟩

instance : Trailing Shut := ⟨Shut.append⟩

section Adds

open Writer

variable {P Q R : String → Prop} {e f : Emit} {es : List Emit} {s : String}

theorem sticky_raw (s : String) : Sticky (raw s) := by
  intro w failed
  obtain ⟨f, hf⟩ := Option.isSome_iff_exists.1 failed
  simp only [raw, hf]

theorem raw_of_none {w : Writer} (h : w.failure = none) (s : String) : raw s w = w.add s := by
  simp only [raw, h, Writer.add]

theorem sticky_fail (reason : Writer → Failure) : Sticky fun w => fail (reason w) w := by
  intro w failed
  obtain ⟨f, hf⟩ := Option.isSome_iff_exists.1 failed
  simp only [fail, hf]

theorem isSome_fail (f : Failure) (w : Writer) : (fail f w).failure.isSome = true := by
  unfold fail
  split
  · next g hg => rw [hg]; rfl
  · rfl

theorem adds_raw (hs : P s) : Adds P (raw s) where
  sticky := sticky_raw s
  added _ h := .inr ⟨s, hs, raw_of_none h s⟩

theorem adds_id (h : P "") : Adds P id where
  sticky _ _ := rfl
  added w _ := .inr ⟨"", h, by rw [Writer.add, String.append_empty]; rfl⟩

theorem adds_fail (reason : Writer → Failure) : Adds P fun w => fail (reason w) w where
  sticky := sticky_fail reason
  added _ _ := .inl (isSome_fail _ _)

theorem Adds.mono (h : Adds P e) (hPQ : ∀ s, P s → Q s) : Adds Q e where
  sticky := h.sticky
  added w hw := (h.added w hw).imp id fun ⟨s, hs, added⟩ => ⟨s, hPQ s hs, added⟩

theorem Adds.seq (he : Adds P e) (hf : Adds Q f) (h : ∀ s t, P s → Q t → R (s ++ t)) :
    Adds R fun w => f (e w) where
  sticky := he.sticky.seq hf.sticky
  added w hw := by
    show (f (e w)).failure.isSome = true ∨ _
    rcases he.added w hw with failed | ⟨s, hs, added⟩
    · rw [hf.sticky _ failed]
      exact .inl failed
    · rw [added]
      refine (hf.added (w.add s) hw).imp id ?_
      rintro ⟨t, ht, more⟩
      refine ⟨s ++ t, h s t hs ht, more.trans ?_⟩
      simp only [Writer.add, String.append_assoc]

theorem Adds.before (he : Adds P e) (hes : Adds Q (all es)) (h : ∀ s t, P s → Q t → R (s ++ t)) :
    Adds R (all (e :: es)) :=
  he.seq hes h

theorem Adds.cons [Trailing Q] (he : Adds OneLine e) (hes : Adds Q (all es)) :
    Adds Q (all (e :: es)) :=
  he.before hes fun _ _ => Trailing.append

theorem Adds.last (he : Adds P e) : Adds P (all [e]) := he

theorem Adds.word [Trailing Q] (hes : Adds Q (all es)) (hs : OneLine s := by decide) :
    Adds Q (all (raw s :: es)) :=
  (adds_raw hs).cons hes

/-- A text in quotation marks, before the rest of a row. -/
theorem Adds.quoted [Trailing Q] (hes : Adds Q (all es)) : Adds Q (all (string s :: es)) :=
  Adds.cons (adds_raw (oneLine_quoted s)) hes

theorem adds_string (s : String) : Adds Shut (string s) := adds_raw (shut_quoted s)

theorem Adds.oneLine (h : Adds Closed e) : Adds OneLine e := h.mono fun _ hs => hs.oneLine

theorem Adds.closed (h : Adds Shut e) : Adds Closed e := h.mono fun _ hs => hs.toClosed

theorem adds_word (h : OneLine s) : Adds OneLine (raw s) := adds_raw h

end Adds

/-! ## Expressions go on -/

namespace Listing

open Writer

theorem Piece.emitWith_eq {n : Node} {write : Care → Emit} {ps : List Piece} {care : Care}
    (sticky : Sticky (write care)) : (Piece.piece n write ps).emitWith care = write care := by
  funext w
  cases failed : w.failure with
  | none => simp only [Piece.emitWith, failed]
  | some f => simp only [Piece.emitWith, failed, sticky w (by rw [failed]; rfl)]

theorem composes_adds : Composes (Adds Closed) where
  skip := adds_id (by decide)
  raw := adds_raw
  all {es} h := by
    induction es with
    | nil => exact adds_id (by decide)
    | cons e es ih =>
      obtain ⟨he, hes⟩ := forall_mem_cons.1 h
      exact he.before (ih hes) fun _ _ => Closed.append
  braced {e} h := by
    have closing : Adds Shut (Writer.all [e, Writer.raw "\x7d"]) :=
      h.oneLine.cons (adds_raw (by decide)).last
    exact (Adds.word closing).closed
  emitWith h care := by
    cases h with
    | piece writes _ =>
      rw [Piece.emitWith_eq (writes care).sticky]
      exact writes care

abbrev Piece.Flat : Piece → Prop := Piece.Each (Adds Closed)

theorem Piece.Flat.emit {p : Piece} (h : p.Flat) : Adds Closed p.emit := composes_adds.emit h

/-- **An expression is written on one row.** -/
theorem flat_lower {n : Node} (h : n.IsExpression) : (lower n).Flat := by
  induction h with
  | absent => exact .piece (fun _ => adds_id (by decide)) (forall_mem_nil _)
  | @node kind line tag attrs children sort below ih =>
    have parts := forall_lowerAll ih
    exact .piece (composes_adds.write (fun _ _ => adds_fail _) rfl sort parts (node_first children)) parts

end Listing

open Writer

/-! ## Rows -/

def Writer.row (w : Writer) (c : String) : Writer :=
  { w with statements := w.statements + 1, text := w.text ++ indentation w.depth ++ c ++ "\n" }

/-- A change that writes one row, whose content has a property, or fails. -/
structure Writes (P : String → Prop) (e : Emit) : Prop where
  sticky : Sticky e
  written : ∀ w : Writer, w.failure = none →
    (e w).failure.isSome = true ∨ ∃ c, P c ∧ e w = w.row c

/-- The content of a row that begins with a word and ends as it should. -/
structure Framed (word : String) (ending : Char → Prop) (c : String) : Prop where
  oneLine : OneLine c
  starts : word.toList <+: c.toList
  ends : ∃ x, c.toList.getLast? = some x ∧ ending x

/-- The end of a row that opens nothing. -/
def Quiet (x : Char) : Prop := x ≠ ':' ∧ x ≠ '{'

structure Tail (ending : Char → Prop) (s : String) : Prop where
  split : ∃ c, s = c ++ "\n" ∧ OneLine c ∧ ∃ x, c.toList.getLast? = some x ∧ ending x

variable {ending : Char → Prop}

theorem getLast?_append_of_last {s t : String} {x : Char} (last : t.toList.getLast? = some x) :
    (s ++ t).toList.getLast? = some x := by
  rw [String.toList_append, List.getLast?_append, last]
  rfl

instance : Trailing (Tail ending) where
  append := by
    rintro s t hs ⟨c, rfl, oneLine, x, last, hx⟩
    refine ⟨s ++ c, String.append_assoc.symm, oneLine_append hs oneLine, x, ?_, hx⟩
    exact getLast?_append_of_last last

variable {c before name after : String}

section Writes

variable {P : String → Prop} {word : String} {e : Emit} {es : List Emit}

theorem sticky_start (pieces : List String) : Sticky (start pieces) := by
  intro w failed
  obtain ⟨f, hf⟩ := Option.isSome_iff_exists.1 failed
  simp only [start, hf]

variable {w : Writer} {Q : String → Prop} {c more : String} {x : Char}

theorem writes_start (pieces : List String) (h : Adds Q e)
    (hQ : ∀ s, Q s → ∃ c, s = c ++ "\n" ∧ P (String.join pieces ++ c)) :
    Writes P fun w => e (start pieces w) where
  sticky := (sticky_start pieces).seq h.sticky
  written w hw := by
    have started : (start pieces w).failure = none := by simp only [start, hw]
    refine (h.added _ started).imp id ?_
    rintro ⟨s, hs, added⟩
    obtain ⟨c, rfl, hc⟩ := hQ s hs
    refine ⟨_, hc, added.trans ?_⟩
    simp only [start, hw, Writer.add, Writer.row, String.append_assoc]

theorem framed_append (hword : OneLine word) (oneLine : OneLine c)
    (last : c.toList.getLast? = some x) (hx : ending x) : Framed word ending (word ++ c) where
  oneLine := oneLine_append hword oneLine
  starts := by rw [String.toList_append]; exact List.prefix_append _ _
  ends := by
    refine ⟨x, ?_, hx⟩
    exact getLast?_append_of_last last

theorem writes_word (hword : OneLine word) (h : Adds (Tail ending) (all es)) :
    Writes (Framed word ending) (all (start [word] :: es)) := by
  refine writes_start [word] h fun s hs => ?_
  obtain ⟨c, same, oneLine, x, last, hx⟩ := hs.split
  refine ⟨c, same, ?_⟩
  rw [show String.join [word] = word by simp [String.join]]
  exact framed_append hword oneLine last hx

theorem Writes.mono (h : Writes P e) (hPQ : ∀ c, P c → Q c) : Writes Q e where
  sticky := h.sticky
  written w hw := (h.written w hw).imp id fun ⟨c, hc, row⟩ => ⟨c, hPQ c hc, row⟩

theorem Framed.weaken (h : Framed (word ++ more) ending c) : Framed word ending c := by
  refine ⟨h.oneLine, List.IsPrefix.trans ?_ h.starts, h.ends⟩
  rw [String.toList_append]
  exact List.prefix_append _ _

theorem writes_words (hword : OneLine word) (hmore : OneLine more) (h : Adds (Tail ending) (all es)) :
    Writes (Framed word ending) (all (start [word, more] :: es)) := by
  have joined : start [word, more] = start [word ++ more] := by
    funext w
    simp [start, String.join]
  rw [joined]
  exact (writes_word (oneLine_append hword hmore) h).mono fun _ => Framed.weaken

theorem line_of_none (h : w.failure = none) (c : String) : Writer.line c w = w.row c := by
  simp [Writer.line, start, h, Writer.row, String.join, String.append_assoc]

theorem writes_line (hc : P c) : Writes P (Writer.line c) where
  sticky := sticky_start _
  written _ hw := .inr ⟨c, hc, line_of_none hw c⟩

theorem framed_self (oneLine : OneLine c) (last : c.toList.getLast? = some x) (hx : ending x) :
    Framed c ending c :=
  ⟨oneLine, List.prefix_refl _, x, last, hx⟩

end Writes

theorem Shut.last (h : Shut c) : ∃ x, c.toList.getLast? = some x ∧ Quiet x := by
  have last := List.getLast?_eq_some_getLast h.filled
  refine ⟨_, last, fun is => h.colon ?_, fun is => h.brace ?_⟩
  · rw [last, is]
  · rw [last, is]

theorem tail_of_shut (h : Shut c) : Tail Quiet (c ++ "\n") := by
  obtain ⟨x, last, hx⟩ := h.last
  exact ⟨c, rfl, h.oneLine, x, last, hx⟩

theorem tail_between (hbefore : OneLine before) (hname : OneLine name) (shut : Shut after) :
    Tail Quiet (before ++ name ++ (after ++ "\n")) := by
  rw [← String.append_assoc]
  exact tail_of_shut (shut.append (oneLine_append hbefore hname))

theorem framed_of_shut (h : Shut c) : Framed c Quiet c := by
  obtain ⟨x, last, hx⟩ := h.last
  exact framed_self h.oneLine last hx

theorem framed_between {word : String} (begins : word.toList <+: before.toList)
    (hbefore : OneLine before) (hname : OneLine name) (hafter : OneLine after) (x : Char)
    (last : after.toList.getLast? = some x) (hx : ending x) :
    Framed word ending (before ++ name ++ after) := by
  refine ⟨oneLine_append (oneLine_append hbefore hname) hafter, ?_, x, ?_, hx⟩
  · simp only [String.toList_append, List.append_assoc]
    exact begins.trans (List.prefix_append _ _)
  · exact getLast?_append_of_last last

end Stencil
