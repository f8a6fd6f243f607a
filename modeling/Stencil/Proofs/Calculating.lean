import Stencil.Operation

/-!
# Calculating with integers

Operands of any type count as numbers. `Scope.Counts` lists those that count as an integer, and
`Scope.calculate_exact` says what comes of two of them: sums, differences, products and powers are
exact whatever their size, quotients and remainders are those of floored division, and a division
has an integer for its result only if it comes out even.

Nothing but a zero divisor makes any of these fail. An operand that is no number does, with strict
types, and that is seen before the divisor is looked at.
-/

namespace Stencil.Scope

variable {scope : Scope} {v a b : Value} {i A B : Int} {n : Number} {s : Store} {op : Arithmetic}

/-- The values that count as an integer. What is no number counts as zero, unless types are strict. -/
inductive Counts (scope : Scope) : Value → Int → Prop
  | null : Counts scope .null 0
  | bool (b : Bool) : Counts scope (.bool b) (if b then 1 else 0)
  | int (i : Int) : Counts scope (.int i) i
  | text {t : String} {i : Int} (digits : Decimal.int64? (Text.trimBlank t) = some i) :
    Counts scope (.text t) i
  | other {v : Value} (lax : scope.options.strictTypes = false) (none : v.toNumber? = none) :
    Counts scope v 0

theorem number_of_counts (h : scope.Counts v i) (other : Value) (symbol : String) :
    scope.number v other symbol = pure (.int i) := by
  have known (number : v.toNumber? = some (.int i)) :
      scope.number v other symbol = pure (.int i) := by rw [Scope.number, number]
  cases h with
  | null | bool | int => exact known rfl
  | @text t i digits => exact known (by rw [Value.toNumber?, numberOfText?, digits])
  | other lax none => rw [Scope.number, none, lax]; rfl

theorem number_of_none (strict : scope.options.strictTypes = true) (none : v.toNumber? = none)
    (other : Value) (symbol : String) :
    scope.number v other symbol = scope.raise 0 (.operands v.typeName other.typeName symbol) .none := by
  rw [Scope.number, none, strict]
  rfl

/-! ## Two integers -/

theorem calculate_of_zero (ha : scope.Counts a A) (hb : scope.Counts b 0) (divides : op.divides = true) :
    scope.calculate op a b = scope.raise 0 .divisionByZero none := by
  rw [Scope.calculate, number_of_counts ha, number_of_counts hb, pure_bind, pure_bind, divides]
  rfl

theorem calculate_of_counts (ha : scope.Counts a A) (hb : scope.Counts b B)
    (fine : op.divides = true → B ≠ 0) :
    scope.calculate op a b = Act.ofExcept ((op.apply (.int A) (.int B)).map Value.ofNumber) := by
  have divisor : ¬ (op.divides && (Number.int B).isZero) = true := by
    rw [Bool.and_eq_true, Number.isZero, beq_iff_eq]
    exact fun zero => fine zero.1 zero.2
  rw [Scope.calculate, number_of_counts ha, number_of_counts hb, pure_bind, pure_bind, if_neg divisor]
  cases op.apply (.int A) (.int B) <;> rfl

theorem calculate_ok (op : Arithmetic) (ha : scope.Counts a A) (hb : scope.Counts b B)
    (fine : op.divides = true → B ≠ 0) (h : op.apply (.int A) (.int B) = .ok n) :
    scope.calculate op a b s = .ok (.ofNumber n) s := by
  rw [calculate_of_counts ha hb fine, h]
  rfl

/-- A division that does not come out even has a double for its result, if both sides can be made
doubles. -/
theorem apply_div_uneven (uneven : A.fmod B ≠ 0) :
    (∃ f, Arithmetic.div.apply (.int A) (.int B) = .ok (.float f)) ∨
      ∃ text, Arithmetic.div.apply (.int A) (.int B) = .error (.plain text) := by
  have side (i : Int) : (∃ x, Arithmetic.finite (.int i) = .ok x) ∨
      ∃ text, Arithmetic.finite (.int i) = .error (.plain text) := by
    unfold Arithmetic.finite
    by_cases large : (Decimal.ofInt i).isInf = true
    · exact .inr ⟨_, if_pos large⟩
    · exact .inl ⟨_, if_neg large⟩
  rw [Arithmetic.apply, if_neg uneven]
  obtain ⟨x, hx⟩ | ⟨text, hx⟩ := side A
  · obtain ⟨y, hy⟩ | ⟨text, hy⟩ := side B
    · exact .inl ⟨x / y, by rw [hx, hy]; rfl⟩
    · exact .inr ⟨text, by rw [hx, hy]; rfl⟩
  · exact .inr ⟨text, by rw [hx]; rfl⟩

theorem calculate_div_iff (ha : scope.Counts a A) (hb : scope.Counts b B) {D : Int} :
    scope.calculate .div a b s = .ok (.int D) s ↔ B ≠ 0 ∧ D * B = A := by
  by_cases zero : B = 0
  · subst zero
    rw [calculate_of_zero ha hb rfl]
    exact iff_of_false (fun same => by cases same) fun both => both.1 rfl
  by_cases even : A.fmod B = 0
  · have product := Int.fdiv_mul_cancel_of_fmod_eq_zero even
    rw [calculate_ok .div ha hb (fun _ => zero) (if_pos even)]
    constructor
    · intro same
      cases same
      exact ⟨zero, product⟩
    · intro both
      rw [Int.eq_of_mul_eq_mul_right zero (both.2.trans product.symm)]
      rfl
  · refine iff_of_false (fun same => ?_) fun both => even ?_
    · rw [calculate_of_counts ha hb fun _ => zero] at same
      obtain ⟨f, h⟩ | ⟨text, h⟩ := apply_div_uneven even <;> rw [h] at same <;> cases same
    · rw [← both.2]
      exact Int.mul_fmod_left D B

/-- Only a zero divisor is reported as one. -/
theorem calculate_divisionByZero_iff (ha : scope.Counts a A) (hb : scope.Counts b B)
    (divides : op.divides = true) :
    scope.calculate op a b s = .error (.raised .divisionByZero scope.template 0 none) s ↔ B = 0 := by
  by_cases zero : B = 0
  · subst zero
    rw [calculate_of_zero ha hb divides]
    exact iff_of_true rfl rfl
  refine iff_of_false (fun failed => ?_) zero
  rw [calculate_of_counts ha hb fun _ => zero] at failed
  cases op with
  | floorDiv | mod => cases failed
  | div =>
    by_cases even : A.fmod B = 0
    · rw [Arithmetic.apply, if_pos even] at failed
      cases failed
    · obtain ⟨f, h⟩ | ⟨text, h⟩ := apply_div_uneven even <;> rw [h] at failed <;> cases failed
  | _ => cases divides

/-- A remainder is smaller than the divisor and has its sign. -/
theorem fmod_small (nonzero : B ≠ 0) :
    (A.fmod B).natAbs < B.natAbs ∧ (A.fmod B = 0 ∨ (A.fmod B).sign = B.sign) := by
  have of_positive {A B : Int} (positive : 0 < B) : 0 ≤ A.fmod B ∧ A.fmod B < B :=
    ⟨Int.fmod_nonneg_of_pos A positive, Int.fmod_lt_of_pos A positive⟩
  rcases Int.lt_or_gt_of_ne nonzero with negative | positive
  · have bounds := of_positive (A := -A) (B := -B) (by omega)
    rw [Int.neg_fmod_neg] at bounds
    refine ⟨by omega, (Int.lt_trichotomy (A.fmod B) 0).elim (fun less => .inr ?_) fun rest => .inl ?_⟩
    · rw [Int.sign_eq_neg_one_of_neg less, Int.sign_eq_neg_one_of_neg negative]
    · omega
  · have bounds := of_positive (A := A) positive
    refine ⟨by omega, (Int.lt_or_eq_of_le bounds.1).elim (fun more => .inr ?_) fun same => .inl same.symm⟩
    rw [Int.sign_eq_one_of_pos more, Int.sign_eq_one_of_pos positive]

/-- **Calculating with integers is exact.** -/
theorem calculate_exact (scope : Scope) (s : Store) (a b : Value) :
    (∀ A B, scope.Counts a A → scope.Counts b B →
      scope.calculate .add a b s = .ok (.int (A + B)) s ∧
      scope.calculate .sub a b s = .ok (.int (A - B)) s ∧
      scope.calculate .mul a b s = .ok (.int (A * B)) s ∧
      (0 ≤ B → scope.calculate .pow a b s = .ok (.int (A.pow B.toNat)) s) ∧
      (B ≠ 0 → ∃ Q R, scope.calculate .floorDiv a b s = .ok (.int Q) s ∧
        scope.calculate .mod a b s = .ok (.int R) s ∧ A = Q * B + R ∧ R.natAbs < B.natAbs ∧
        (R = 0 ∨ R.sign = B.sign)) ∧
      (∀ D, scope.calculate .div a b s = .ok (.int D) s ↔ B ≠ 0 ∧ D * B = A) ∧
      ∀ op : Arithmetic, op.divides = true →
        (scope.calculate op a b s = .error (.raised .divisionByZero scope.template 0 none) s ↔
          B = 0)) ∧
    (scope.options.strictTypes = true → ∀ op : Arithmetic,
      (a.toNumber? = none → scope.calculate op a b s =
        .error (.raised (.operands a.typeName b.typeName op.symbol) scope.template 0 none) s) ∧
      (a.toNumber?.isSome = true → b.toNumber? = none → scope.calculate op a b s =
        .error (.raised (.operands b.typeName a.typeName op.symbol) scope.template 0 none) s)) := by
  refine ⟨fun A B ha hb => ⟨?_, ?_, ?_, fun positive => ?_, fun nonzero => ?_, fun D => ?_,
    fun op divides => ?_⟩, fun strict op => ⟨fun none => ?_, fun number none => ?_⟩⟩
  · exact calculate_ok .add ha hb (by rintro ⟨⟩) rfl
  · exact calculate_ok .sub ha hb (by rintro ⟨⟩) rfl
  · exact calculate_ok .mul ha hb (by rintro ⟨⟩) rfl
  · exact calculate_ok .pow ha hb (by rintro ⟨⟩) (if_pos positive)
  · exact ⟨A.fdiv B, A.fmod B, calculate_ok .floorDiv ha hb (fun _ => nonzero) rfl,
      calculate_ok .mod ha hb (fun _ => nonzero) rfl, (Int.fdiv_mul_add_fmod A B).symm,
      fmod_small nonzero⟩
  · exact calculate_div_iff ha hb
  · exact calculate_divisionByZero_iff ha hb divides
  · rw [Scope.calculate, number_of_none strict none]
    rfl
  · obtain ⟨n, hn⟩ := Option.isSome_iff_exists.1 number
    rw [Scope.calculate, Scope.number, hn, number_of_none strict none]
    rfl

def page (options : Options) : Scope := ⟨"page", options, .empty, Container.method?⟩

/-- A text with blanks around its digits, and a strict division of an empty list by zero. -/
theorem calculate_exact_page :
    (∃ Q R, (page {}).calculate .floorDiv (.text " -7 ") (.int 2) .empty = .ok (.int Q) .empty ∧
      (page {}).calculate .mod (.text " -7 ") (.int 2) .empty = .ok (.int R) .empty ∧
      -7 = Q * 2 + R ∧ R.natAbs < (2 : Int).natAbs ∧ (R = 0 ∨ R.sign = (2 : Int).sign)) ∧
    (page { strictTypes := true }).calculate .mod (.tuple []) .null .empty =
      .error (.raised (.operands "tuple" "null" "%") "page" 0 none) .empty :=
  ⟨((calculate_exact (page {}) .empty (.text " -7 ") (.int 2)).1 (-7) 2 (.text (by decide))
      (.int 2)).2.2.2.2.1 (by decide),
    ((calculate_exact (page { strictTypes := true }) .empty (.tuple []) .null).2 rfl .mod).1 rfl⟩

end Stencil.Scope
