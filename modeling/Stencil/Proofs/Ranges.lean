import Stencil.Proofs.Calculating
import Stencil.Proofs.Step

/-!
# Integers in 64 bits

Integers have any size, but ranges and the tests `even`, `odd` and `divisible by` take them in 64
bits, and one that does not fit counts as zero (`int64OrZero`). Also the sums of a range are taken in
64 bits.

As long as everything fits, nothing of this is seen: a range is the progression from its low end to
its high end (`Range.walk_eq_ints`), and the tests answer as they should (`Language.integers_exact`).
The ends and the step of a range may be any values that count as integers
(`Scope.range_progression`).
-/

namespace Stencil

namespace Range

variable {low high step x : Int} {v : Value} {n : Nat}

theorem mem_ints (h : v ∈ ints low step n) : ∃ k : Nat, k < n ∧ v = .int (low + k * step) := by
  induction n generalizing low with
  | zero => cases h
  | succ n ih =>
    cases h with
    | head => exact ⟨0, n.succ_pos, by simp⟩
    | tail _ rest =>
      obtain ⟨k, less, rfl⟩ := ih rest
      refine ⟨k + 1, Nat.succ_lt_succ less, congrArg Value.int ?_⟩
      rw [Int.natCast_succ, Int.add_mul, Int.one_mul]
      omega

theorem wrap_of_fits (h : Decimal.fitsInt64 x = true) : wrap x = x := by
  simp only [Decimal.fitsInt64, Bool.and_eq_true, decide_eq_true_eq] at h
  exact Int.bmod_eq_of_le (by omega) (by omega)

def inside (high step x : Int) : Bool := (0 < step && x ≤ high) || (step < 0 && high ≤ x)

/-- A walk that passes the high end in its `n`-th round, before a sum leaves the 64 bits. -/
theorem walk_of_inside (within : ∀ k : Nat, k < n → inside high step (x + k * step) = true)
    (past : inside high step (x + n * step) = false)
    (fits : ∀ k : Nat, k ≤ n → Decimal.fitsInt64 (x + k * step) = true) {rounds : Nat}
    (enough : n < rounds) :
    (walk high step rounds x).map (List.map Value.int) = some (ints x step n) := by
  have here : x + (0 : Nat) * step = x := by simp
  obtain ⟨rounds, rfl⟩ : ∃ r, rounds = r + 1 := ⟨rounds - 1, by omega⟩
  induction n generalizing x rounds with
  | zero =>
    rw [here, inside] at past
    rw [walk, if_neg (by rw [past]; exact Bool.false_ne_true)]
    rfl
  | succ n ih =>
    have shift (k : Nat) : x + step + k * step = x + (k + 1 : Nat) * step := by
      rw [Int.natCast_succ, Int.add_mul, Int.one_mul]
      omega
    have first := within 0 n.succ_pos
    rw [here, inside] at first
    -- the sum is the next one of the walk, which fits: it does not wrap around
    have next : wrap (x + step) = x + step := by
      have sum := shift 0
      rw [show ((0 : Nat) : Int) * step = 0 by simp, Int.add_zero] at sum
      rw [sum]
      exact wrap_of_fits (fits 1 (by omega))
    have rest := ih (x := x + step) (fun k less => by rw [shift]; exact within (k + 1) (by omega))
      (by rw [shift]; exact past) (fun k le => by rw [shift]; exact fits (k + 1) (by omega))
      (by simp) (rounds - 1) (by omega)
    rw [Nat.sub_add_cancel (by omega)] at rest
    rw [walk, if_pos first, next]
    cases walked : walk high step rounds (x + step) with
    | none =>
      rw [walked] at rest
      cases rest
    | some items =>
      rw [walked] at rest
      exact congrArg (Option.map (Value.int x :: ·)) rest

def past (low high step : Int) : Int := low + count low high step * step

/-- How far apart the integers of a range are, and in which direction they go. -/
def stride (low high step : Int) : Int := if high < low then -step.natAbs else step.natAbs

/-- **A range of integers is a progression**, as long as the sum that would pass its end fits into 64
bits. -/
theorem walk_eq_ints {c : Int} (some : c ≠ 0) (direction : step = stride low high c)
    (hlow : Decimal.fitsInt64 low = true) (hpast : Decimal.fitsInt64 (past low high step) = true) :
    (walk high step words low).map (List.map Value.int) = .some (ints low step (count low high step)) ∧
      ∀ k : Nat, k < count low high step →
        min low high ≤ low + k * step ∧ low + k * step ≤ max low high := by
  have positive : 0 < c.natAbs := Int.natAbs_pos.2 some
  rw [stride] at direction
  -- from here on only the size of a step and its direction matter
  generalize c.natAbs = size at positive direction
  have rounds : count low high step = (high - low).natAbs / size + 1 := by
    rw [count, show step.natAbs = size by rw [direction]; split <;> omega]
  have reached (k : Nat) (less : k < count low high step) : k * size ≤ (high - low).natAbs :=
    (Nat.le_div_iff_mul_le positive).1 (by omega)
  have passed : (high - low).natAbs < count low high step * size :=
    (Nat.div_lt_iff_lt_mul positive).1 (by omega)
  have ordered (k : Nat) (le : k ≤ count low high step) :
      k * size ≤ count low high step * size := Nat.mul_le_mul_right size le
  have moved (k : Nat) : low + k * step = if high < low then low - (k * size : Nat) else
      low + (k * size : Nat) := by
    rw [direction, Int.natCast_mul]
    split
    · rw [Int.mul_neg, Int.sub_eq_add_neg]
    · rfl
  rw [past, moved] at hpast
  simp only [Decimal.fitsInt64, Bool.and_eq_true, decide_eq_true_eq] at hlow hpast
  have enough : count low high step < words := by
    have le := Nat.le_mul_of_pos_right (count low high step) positive
    unfold words
    split at hpast <;> omega
  refine ⟨walk_of_inside (fun k less => ?_) ?_ (fun k le => ?_) enough, fun k less => ?_⟩
  · have := reached k less
    rw [moved, inside]
    split <;> simp <;> omega
  · rw [moved, inside]
    split <;> simp <;> omega
  · have := ordered k le
    rw [moved]
    simp only [Decimal.fitsInt64, Bool.and_eq_true, decide_eq_true_eq]
    split <;> omega
  · have := reached k less
    rw [moved]
    split <;> omega

end Range

namespace Language

open Decimal (fitsInt64)
open Range (stride past)

variable {a b c : Int} (scope : Scope) (s : Store)

theorem int64OrZero_of_fits (h : fitsInt64 a = true) : int64OrZero a = a := if_pos h

theorem integerFor_int (name : String) (h : fitsInt64 a = true) :
    integerFor name (.int a) = pure a :=
  congrArg pure (int64OrZero_of_fits h)

theorem parity_int (name : String) (rest : Nat) (ha : fitsInt64 a = true) :
    parity name rest scope [.int a] [] s = .ok (some (.bool (a.natAbs % 2 == rest))) s := by
  show (do let i ← integerFor name (.int a); return some (Value.bool (i.natAbs % 2 == rest)) :
    Act (Option Value)) s = _
  rw [integerFor_int name ha]
  rfl

theorem divisibleBy_int (ha : fitsInt64 a = true) (hb : fitsInt64 b = true) (divisor : b ≠ 0) :
    divisibleBy scope [.int a, .int b] [] s = .ok (some (.bool (a % b == 0))) s := by
  show ((integerFor _ (.int a) >>= fun i => integerFor _ (.int b) >>= fun j =>
    if j = 0 then Act.complain "Division by zero." else pure (Value.bool (i % j == 0))) >>=
      fun v => pure (some v)) s = _
  rw [integerFor_int _ ha, integerFor_int _ hb, pure_bind, pure_bind, if_neg divisor]
  rfl

theorem numberRange_int (ha : fitsInt64 a = true) (hb : fitsInt64 b = true) (some : c ≠ 0)
    (hc : fitsInt64 c.natAbs = true) (hpast : fitsInt64 (past a b (stride a b c)) = true) :
    scope.numberRange (.int a) (.int b) (.int c) =
      pure (Range.ints a (stride a b c) (Range.count a b (stride a b c))) := by
  have ends : fitsInt64 c = true ∧ fitsInt64 (-(c.natAbs : Int)) = true := by
    simp only [fitsInt64, Bool.and_eq_true, decide_eq_true_eq] at hc ⊢
    omega
  have way : (if b < a then Range.wrap (-(c.natAbs : Int)) else c.natAbs) = stride a b c := by
    rw [Range.wrap_of_fits ends.2, stride]
  have walked := (Range.walk_eq_ints some rfl ha hpast).1
  unfold Scope.numberRange
  dsimp only
  rw [int64OrZero_of_fits ha, int64OrZero_of_fits hb, int64OrZero_of_fits ends.1,
    Range.wrap_of_fits hc, if_neg (by omega), way]
  obtain ⟨items, found, same⟩ := Option.map_eq_some_iff.1 walked
  rw [found]
  exact congrArg pure same

theorem range_int : scope.range (.int a) (.int b) (.int c) =
    scope.numberRange (.int a) (.int b) (.int c) >>= Act.newList := by
  unfold Scope.range Scope.number
  simp only [Value.toNumber?, pure_bind]

/-- **Integers that fit into 64 bits are taken for what they are.** -/
theorem integers_exact (ha : fitsInt64 a = true) (hb : fitsInt64 b = true) :
    parity "even" 0 scope [.int a] [] s = .ok (some (.bool (decide (2 ∣ a)))) s ∧
    parity "odd" 1 scope [.int a] [] s = .ok (some (.bool (decide (¬ 2 ∣ a)))) s ∧
    (b ≠ 0 → divisibleBy scope [.int a, .int b] [] s = .ok (some (.bool (decide (b ∣ a)))) s) ∧
    (c ≠ 0 → fitsInt64 c.natAbs = true → fitsInt64 (past a b (stride a b c)) = true →
      ∃ rest, rangeFunction scope [.int a, .int b, .int c] [] s =
          .ok (some (.list s.lists.size)) { s with lists := s.lists.push ⟨.int a :: rest, 0⟩ } ∧
        ∀ v ∈ Value.int a :: rest, ∃ i, v = .int i ∧ min a b ≤ i ∧ i ≤ max a b) := by
  refine ⟨?_, ?_, fun divisor => ?_, fun some hc hpast => ?_⟩
  · rw [parity_int scope s _ _ ha, show (a.natAbs % 2 == 0) = decide (2 ∣ a) from ?_]
    rw [Bool.beq_eq_decide_eq, decide_eq_decide]
    omega
  · rw [parity_int scope s _ _ ha, show (a.natAbs % 2 == 1) = decide (¬ 2 ∣ a) from ?_]
    rw [Bool.beq_eq_decide_eq, decide_eq_decide]
    omega
  · rw [divisibleBy_int scope s ha hb divisor, show (a % b == 0) = decide (b ∣ a) from ?_]
    rw [Bool.beq_eq_decide_eq, decide_eq_decide]
    exact Int.dvd_iff_emod_eq_zero.symm
  · have between := (Range.walk_eq_ints some rfl ha hpast).2
    refine ⟨Range.ints (a + stride a b c) (stride a b c) ((b - a).natAbs / (stride a b c).natAbs), ?_,
      fun v member => ?_⟩
    · show (scope.range (.int a) (.int b) (.int c) >>= fun v => pure (Option.some v)) s = _
      rw [range_int, numberRange_int scope ha hb some hc hpast]
      rfl
    · obtain ⟨k, less, rfl⟩ := Range.mem_ints (n := Range.count a b (stride a b c)) member
      exact ⟨_, rfl, between k less⟩

theorem integers_exact_down :
    ∃ rest, rangeFunction ⟨"", {}, .empty, Container.method?⟩ [.int 7, .int 3, .int (-2)] [] .empty =
        .ok (some (.list 0)) { Store.empty with lists := #[⟨.int 7 :: rest, 0⟩] } ∧
      ∀ v ∈ Value.int 7 :: rest, ∃ i, v = .int i ∧ min 7 3 ≤ i ∧ i ≤ max 7 3 :=
  (integers_exact (c := -2) _ .empty (by decide) (by decide)).2.2.2 (by decide) (by decide) (by decide)

end Language

/-! ## Ranges of values that count as integers -/

namespace Range

variable {l h c : Int}

theorem ints_eq_map (l d : Int) (n : Nat) :
    ints l d n = (List.range n).map fun k : Nat => Value.int (l + k * d) := by
  induction n generalizing l with
  | zero => rfl
  | succ n ih =>
    have shift (k : Nat) : l + d + k * d = l + (k + 1 : Nat) * d := by
      rw [Int.natCast_succ, Int.add_mul, Int.one_mul]
      omega
    rw [ints, ih, List.range_succ_eq_map, List.map_cons, List.map_map]
    simp only [shift, Function.comp_def, Nat.succ_eq_add_one]
    simp

/-- Every `c`-th integer from `l` on in the direction of `h`, as far as `h`. -/
def progression (l h c : Int) : List Value :=
  (List.range ((h - l).natAbs / c.natAbs + 1)).map fun k : Nat => .int (l + k * stride l h c)

/-- The sum that passes the high end is not further from it than one step. -/
theorem past_near (nonzero : c ≠ 0) :
    h - c.natAbs ≤ past l h (stride l h c) ∧ past l h (stride l h c) ≤ h + c.natAbs := by
  have positive : 0 < c.natAbs := Int.natAbs_pos.2 nonzero
  have size : (stride l h c).natAbs = c.natAbs := by rw [stride]; split <;> omega
  have whole := Nat.div_add_mod (h - l).natAbs c.natAbs
  have rest := Nat.mod_lt (h - l).natAbs positive
  have sum : count l h (stride l h c) * c.natAbs = c.natAbs * ((h - l).natAbs / c.natAbs) + c.natAbs := by
    rw [count, size, Nat.add_mul, Nat.one_mul, Nat.mul_comm]
  have moved : past l h (stride l h c) = if h < l then l - (count l h (stride l h c) * c.natAbs : Nat)
      else l + (count l h (stride l h c) * c.natAbs : Nat) := by
    rw [past, stride]
    split
    · rw [Int.mul_neg, Int.natCast_mul, Int.sub_eq_add_neg]
    · rw [Int.natCast_mul]
  rw [moved, sum]
  split <;> omega

end Range

namespace Scope

open Decimal (fitsInt64)
open Range (stride)

variable {scope : Scope} {low high step : Value} {l h c : Int} {s : Store}

/-- Whether both ends of a range are texts of one character, so that it goes through characters. -/
def spansChars : Value → Value → Bool
  | .text a, .text z => (singleChar? a).isSome && (singleChar? z).isSome
  | _, _ => false

theorem range_of_counts (hl : scope.Counts low l) (hh : scope.Counts high h)
    (hc : scope.Counts step c) (ends : spansChars low high = false) :
    scope.range low high step = scope.numberRange (.int l) (.int h) (.int c) >>= Act.newList := by
  have numbers : (do
      let a ← scope.number low high ".."
      let z ← scope.number high low ".."
      let s ← scope.number step low ".."
      Act.newList (← scope.numberRange a z s)) =
        scope.numberRange (.int l) (.int h) (.int c) >>= Act.newList := by
    rw [number_of_counts hl, number_of_counts hh, number_of_counts hc, pure_bind, pure_bind, pure_bind]
  rw [← numbers]
  cases low with
  | text a =>
    cases high with
    | text z =>
      rw [spansChars, Bool.and_eq_false_iff, Option.isSome_eq_false_iff, Option.isSome_eq_false_iff,
        Option.isNone_iff_eq_none, Option.isNone_iff_eq_none] at ends
      unfold Scope.range
      dsimp only
      obtain none | none := ends
      · rw [none]
        rfl
      · rw [none]
        cases singleChar? a <;> rfl
    | _ => rfl
  | _ => rfl

/-- **A range of integers is a full progression.** -/
theorem range_progression (scope : Scope) (s : Store) {low high step : Value} {l h c : Int}
    (hl : scope.Counts low l) (hh : scope.Counts high h) (hc : scope.Counts step c)
    (ends : spansChars low high = false)
    (fits : ∀ i ∈ [l, h, c, h + c.natAbs, h - c.natAbs], fitsInt64 i = true) :
    (c ≠ 0 → scope.range low high step s = .ok (.list s.lists.size)
      { s with lists := s.lists.push ⟨Range.progression l h c, 0⟩ }) ∧
    (scope.range low high step s = .error (.raised .zeroStep scope.template 0 none) s ↔ c = 0) ∧
    ∀ (frame : Frame) (calls : Calls) (x y : Expr) (w w₁ w₂ : World), frame.scope = scope →
      frame.value calls x w = .ok low w₁ → frame.value calls y w₁ = .ok high w₂ →
      frame.value calls (.range x y) w = Eval.ofAct (scope.range low high (.int 1)) w₂ := by
  have made (nonzero : c ≠ 0) : scope.range low high step s = .ok (.list s.lists.size)
      { s with lists := s.lists.push ⟨Range.progression l h c, 0⟩ } := by
    have size : fitsInt64 c.natAbs = true ∧ fitsInt64 (Range.past l h (stride l h c)) = true := by
      have near := Range.past_near (l := l) (h := h) nonzero
      simp only [List.forall_mem_cons, fitsInt64, Bool.and_eq_true, decide_eq_true_eq] at fits ⊢
      omega
    have count : Range.count l h (stride l h c) = (h - l).natAbs / c.natAbs + 1 := by
      rw [Range.count, stride]
      split <;> simp only [Int.natAbs_neg, Int.natAbs_natCast]
    rw [range_of_counts hl hh hc ends, Language.numberRange_int scope (fits l (by simp))
      (fits h (by simp)) nonzero size.1 size.2, pure_bind, Range.ints_eq_map, count]
    rfl
  refine ⟨made, ⟨fun failed => ?_, ?_⟩, ?_⟩
  · by_cases zero : c = 0
    · exact zero
    · rw [made zero] at failed
      cases failed
  · rintro rfl
    rw [range_of_counts hl hh hc ends]
    rfl
  · rintro frame calls x y w w₁ w₂ rfl hx hy
    unfold Frame.value
    rw [Step.bind_of_ok hx, Step.bind_of_ok hy]

/-- Down from a text, past an end that is not met. -/
theorem range_progression_down : (page {}).range (.text "10") .null (.int (-3)) .empty =
    .ok (.list 0) { Store.empty with lists := #[⟨[.int 10, .int 7, .int 4, .int 1], 0⟩] } :=
  have ten : (page {}).Counts (.text "10") 10 := .text (by decide)
  (range_progression (page {}) .empty ten .null (.int (-3)) rfl (by decide)).1 (by decide)

end Scope
end Stencil
