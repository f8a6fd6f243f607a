import Mathlib.Tactic.SplitIfs
import Stencil.Decimal.Layout

/-!
# The characters of numbers

Numbers are written with digits, a point, the two signs and the mark of an exponent. A property that
these characters have is a property of every character of a number, whatever its layout.
-/

namespace Stencil

open List

/-- A property of the characters numbers are written with, the marks of exponents apart. -/
structure Numeric (P : Char → Prop) : Prop where
  digit : ∀ c : Char, c.isDigit = true → P c
  point : P '.'
  minus : P '-'
  plus : P '+'

namespace Numeric

variable {P : Char → Prop} (h : Numeric P)

include h

theorem zero : P '0' := h.digit _ rfl

theorem toDigits (n : Nat) : ∀ c ∈ Nat.toDigits 10 n, P c :=
  fun c hc => h.digit c (Nat.isDigit_of_mem_toDigits (by decide) (by decide) hc)

theorem replicate (n : Nat) : ∀ c ∈ List.replicate n '0', P c :=
  fun _ hc => (mem_replicate.1 hc).2 ▸ h.zero

theorem int (i : Int) : ∀ c ∈ (toString i).toList, P c := by
  change ∀ c ∈ i.repr.toList, P c
  rw [Int.repr_eq_if]
  split_ifs
  · rw [Nat.toList_repr]
    exact h.toDigits _
  · rw [String.toList_append, Nat.toList_repr]
    exact forall_mem_append.2 ⟨forall_mem_singleton.2 h.minus, h.toDigits _⟩

open Decimal

theorem ofScaled (n : Nat) (e : Int) : ∀ c ∈ (Digits.ofScaled n e).digits, P c :=
  fun c hc => h.toDigits n c
    (mem_reverse.1 (dropWhile_sublist _ |>.subset (mem_reverse.1 hc)))

theorem searchDigits (m : Nat) (q e : Int) (fuel count : Nat) :
    ∀ c ∈ (Decimal.searchDigits m q e fuel count).digits, P c := by
  induction fuel generalizing count with
  | zero => exact h.ofScaled _ _
  | succ fuel ih =>
    unfold Decimal.searchDigits
    split
    · exact h.ofScaled _ _
    · exact ih _

theorem shortest (f : Float) : ∀ c ∈ (Decimal.shortest f).digits, P c := by
  unfold Decimal.shortest
  dsimp only
  split_ifs
  · exact fun _ hc => absurd hc not_mem_nil
  · exact h.searchDigits _ _ _ _ _

theorem significant (f : Float) (count : Nat) : ∀ c ∈ (Decimal.significant f count).digits, P c := by
  unfold Decimal.significant
  dsimp only
  split_ifs
  · exact fun _ hc => absurd hc not_mem_nil
  · exact h.ofScaled _ _

/-! ## Layouts -/

theorem positionalChars {d : Digits} (hd : ∀ c ∈ d.digits, P c) :
    ∀ c ∈ Decimal.positionalChars d, P c := by
  have whole (n : Nat) :
      ∀ c ∈ d.digits.take n ++ List.replicate (n - d.digits.length) '0', P c :=
    forall_mem_append.2 ⟨fun c hc => hd c (mem_of_mem_take hc), h.replicate _⟩
  unfold Decimal.positionalChars
  split_ifs
  · exact forall_mem_singleton.2 h.zero
  · exact forall_mem_cons.2 ⟨h.zero, forall_mem_cons.2
      ⟨h.point, forall_mem_append.2 ⟨h.replicate _, hd⟩⟩⟩
  · dsimp only
    split
    · exact whole _
    · exact forall_mem_append.2
        ⟨whole _, forall_mem_cons.2 ⟨h.point, fun c hc => hd c (mem_of_mem_drop hc)⟩⟩

theorem paddedChars (width n : Nat) : ∀ c ∈ Decimal.paddedChars width n, P c :=
  forall_mem_append.2 ⟨h.replicate _, h.toDigits n⟩

theorem exponentChars {l : Layout} (hl : P l.mark) {d : Digits} (hd : ∀ c ∈ d.digits, P c) :
    ∀ c ∈ Decimal.exponentChars l d, P c := by
  have sign (e : Int) : P (if e < 0 then '-' else '+') := by
    split_ifs
    · exact h.minus
    · exact h.plus
  have exponent (e : Int) : ∀ c ∈
      l.mark :: (if e < 0 then '-' else '+') :: Decimal.paddedChars l.width e.natAbs, P c :=
    forall_mem_cons.2 ⟨hl, forall_mem_cons.2 ⟨sign e, h.paddedChars _ _⟩⟩
  have none : ∀ c ∈ ([] : List Char), P c := fun _ hc => absurd hc not_mem_nil
  unfold Decimal.exponentChars
  cases hdigits : d.digits with
  | nil =>
    exact forall_mem_cons.2 ⟨h.zero, forall_mem_append.2 ⟨none, exponent _⟩⟩
  | cons c cs =>
    rw [hdigits, forall_mem_cons] at hd
    refine forall_mem_cons.2 ⟨hd.1, forall_mem_append.2 ⟨?_, exponent _⟩⟩
    split_ifs
    · exact none
    · exact forall_mem_cons.2 ⟨h.point, hd.2⟩

theorem chars {l : Layout} (hl : P l.mark) {d : Digits} (hd : ∀ c ∈ d.digits, P c) :
    ∀ c ∈ l.chars d, P c := by
  have either (b : Bool) :
      ∀ c ∈ (if b then Decimal.exponentChars l d else Decimal.positionalChars d), P c := by
    cases b with
    | true => exact h.exponentChars hl hd
    | false => exact h.positionalChars hd
  exact either _

theorem signed (negative : Bool) {cs : List Char} (hcs : ∀ c ∈ cs, P c) :
    ∀ c ∈ (Decimal.signed negative cs).toList, P c := by
  rw [Decimal.signed, String.toList_ofList]
  split_ifs
  · exact forall_mem_cons.2 ⟨h.minus, hcs⟩
  · exact hcs

end Numeric
end Stencil
