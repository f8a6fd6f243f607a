import Stencil.Proofs.Step

/-!
# What a loop sees of a container

`Store.pairs` is what a loop goes through. The filters of containers and the operator `in` look at
containers in their own ways; here they are held against the pairs of a loop.
-/

namespace Stencil

open List

variable {s : Store} {v w : Value}

theorem map_numbered (i : Nat) (items : List Value) : (numbered i items).map (·.2) = items := by
  induction items generalizing i with
  | nil => rfl
  | cons v vs ih => rw [numbered, map_cons, ih]

theorem isEmpty_container (container : (s.items? v).isSome = true) :
    s.isEmpty v = (s.pairs v).isEmpty := by
  have same (items : List Value) : items.isEmpty = (numbered 0 items).isEmpty := by
    cases items <;> rfl
  cases v with
  | list | set => exact same _
  | tuple items => exact same items
  | dict r => rfl
  | _ => cases container

namespace Language

open Callable (ofValue)

/-- Values are printed one after another, unless one of them contains itself. -/
theorem mapM_print (s : Store) (vs : List Value) :
    vs.mapM Act.print s = if vs.any fun v => (s.view v).endless false then .error .stuck s
      else .ok (vs.map fun v => (s.view v).print) s := by
  induction vs with
  | nil => rfl
  | cons v vs ih =>
    have first := Act.print_eq v s
    rw [mapM_cons, any_cons]
    cases stuck : (s.view v).endless false with
    | true =>
      rw [stuck, if_pos rfl] at first
      exact Step.bind_of_error first
    | false =>
      rw [stuck, if_neg Bool.false_ne_true] at first
      rw [Step.bind_of_ok first, Bool.false_or]
      split at ih
      · next others =>
        rw [Step.bind_of_error ih, if_pos others]
      · next others =>
        rw [Step.bind_of_ok ih, if_neg others]
        rfl

theorem pick_container (name : String) (chars : List Char → Option Char)
    (items : List Value → Option Value) (scope : Scope) (container : (s.items? v).isSome = true) :
    pick name chars items scope [v] [] s =
      .ok (some ((items ((s.pairs v).map (·.2))).getD .null)) s := by
  cases v with
  | list | tuple | dict | set => rfl
  | _ => cases container

/-- A list, tuple or dict has as many items as a loop goes through. -/
theorem count_container (known : v.isContainer = true) : s.count? v = some (s.pairs v).length := by
  have same (items : List Value) : items.length = (numbered 0 items).length := by
    have numbers := congrArg List.length (map_numbered 0 items)
    rw [← numbers, length_map]
  cases v with
  | list r => exact congrArg some (same (s.list r))
  | tuple items => exact congrArg some (same items)
  | dict r => rfl
  | _ => cases known

theorem length_of_count {scope : Scope} {n : Nat} (count : s.count? v = some n) :
    length scope [v] [] s = .ok (some (.int n)) s := by
  cases v with
  | list | tuple | dict =>
    cases count
    rfl
  | _ => cases count

/-- **The filters of containers see what a loop sees.**  Only joining values comes to nothing if one of
them contains itself. -/
theorem filters_see_pairs (scope : Scope) (s : Store) (v : Value) (glue : String)
    (container : (s.items? v).isSome = true) :
    keys scope [v] [] s = .ok (some (.list s.lists.size))
        { s with lists := s.lists.push ⟨(s.pairs v).map (·.1), 0⟩ } ∧
      pick "first" List.head? List.head? scope [v] [] s =
        .ok (some (((s.pairs v).map (·.2)).head?.getD .null)) s ∧
      pick "last" List.getLast? List.getLast? scope [v] [] s =
        .ok (some (((s.pairs v).map (·.2)).getLast?.getD .null)) s ∧
      testOf "empty" Store.isEmpty scope [v] [] s = .ok (some (.bool (s.pairs v).isEmpty)) s ∧
      (v.isContainer = true →
        length scope [v] [] s = .ok (some (.int (s.pairs v).length)) s ∧
        join scope [v, .text glue] [] s = (
          if (s.pairs v).any fun p => (s.view p.2).endless false then .error .stuck s
          else .ok (some (.text (String.intercalate glue
            ((s.pairs v).map fun p => (s.view p.2).print)))) s) ∧
        testOf "iterable" (fun _ v => v.isContainer) scope [v] [] s = .ok (some (.bool true)) s) := by
  refine ⟨rfl, pick_container _ _ _ scope container, pick_container _ _ _ scope container, ?_,
    fun known => ⟨?_, ?_, ?_⟩⟩
  · show EStateM.Result.ok (some (Value.bool (s.isEmpty v))) s = _
    rw [isEmpty_container container]
  · rw [length_of_count (count_container known)]
  · have parts := mapM_print s ((s.pairs v).map (·.2))
    rw [any_map, map_map] at parts
    have joins : join scope [v, .text glue] [] s = ((do
        let parts ← ((s.pairs v).map (·.2)).mapM Act.print
        return Value.text (joined glue none parts)) >>= fun v => pure (some v) :
        Act (Option Value)) s := by
      cases v with
      | list | tuple | dict => rfl
      | _ => cases known
    rw [joins]
    split at parts
    · next stuck => exact (Step.bind_of_error (Step.bind_of_error parts)).trans (if_pos stuck).symm
    · next ends =>
      have text := Step.bind_of_ok (f := fun parts => pure (Value.text (joined glue none parts))) parts
      exact (Step.bind_of_ok text).trans (if_neg ends).symm
  · show EStateM.Result.ok (some (Value.bool v.isContainer)) s = _
    rw [known]

theorem filters_see_pairs_two :
    pick "last" List.getLast? List.getLast? ⟨"", {}, .empty, Container.method?⟩ [.tuple [.int 1, .int 2]]
        [] .empty = .ok (some (.int 2)) .empty ∧
      length ⟨"", {}, .empty, Container.method?⟩ [.tuple [.int 1, .int 2]] [] .empty =
        .ok (some (.int 2)) .empty :=
  have seen := filters_see_pairs ⟨"", {}, .empty, Container.method?⟩ .empty (.tuple [.int 1, .int 2]) ""
    rfl
  ⟨seen.2.2.1, (seen.2.2.2.2 rfl).1⟩

end Language

/-! ## Membership -/

theorem Store.contains_iff (container : v.isContainer = true) :
    s.contains v w = true ↔ ∃ p ∈ s.pairs v, s.same p.2 w = true := by
  have among (vs : List Value) (ps : List (Value × Value)) (h : ps.map (·.2) = vs) :
      (vs.any fun x => s.same x w) = true ↔ ∃ p ∈ ps, s.same p.2 w = true := by
    rw [← h, any_map, any_eq_true]
    rfl
  cases v with
  | dict r => exact among _ _ rfl
  | list | tuple => exact among _ _ (map_numbered 0 _)
  | _ => cases container

theorem Store.same_of_null (h : (v.isNull || w.isNull) = true) :
    s.same v w = (v.isNull && w.isNull) := by
  cases v with
  | null =>
    cases w with
    | null => rfl
    | _ => exact Bool.and_false _
  | _ =>
    cases w with
    | null => exact Bool.and_false _
    | _ => cases h

theorem Scope.same_iff {scope : Scope} (lax : scope.options.strictTypes = false)
    (plain : ∀ handle o, w ≠ .object handle o) :
    s.same v w = true ↔ scope.relate .eq v w s = .ok true s := by
  show _ ↔ scope.equal v w s = _
  have answer (b : Bool) : b = true ↔ (pure b : Act Bool) s = .ok true s := by
    cases b <;> simp [pure, EStateM.pure]
  unfold Scope.equal
  by_cases null : (v.isNull || w.isNull) = true
  · rw [if_pos null, Store.same_of_null null]
    exact answer _
  · rw [if_neg null]
    by_cases sorts : v.sort = w.sort
    · rw [if_neg (by simp [sorts])]
      split
      · next o => exact absurd rfl (plain _ o)
      · rw [Store.same, sorts, beq_self_eq_true, Bool.true_and, Step.bind_of_ok (x := get) rfl]
        cases s.compare .eq v w with
        | ok r => exact answer r
        | error f => exact iff_of_false Bool.false_ne_true nofun
    · rw [if_pos (by simp [sorts]), lax, Store.same, beq_false_of_ne sorts]
      exact answer false

/-- **`in` agrees with loops and `==`.** -/
theorem Frame.member_iff {frame : Frame} {calls : Calls}
    (lax : frame.env.options.strictTypes = false) {needle haystack : Expr} {h n : Value}
    {w w₁ w₂ : World} (hh : frame.value calls haystack w = .ok h w₁)
    (hn : frame.value calls needle w₁ = .ok n w₂) (container : h.isContainer = true)
    (plain : ∀ handle o, n ≠ .object handle o) (negated : Bool) :
    ∃ found, frame.value calls (.member negated needle haystack) w =
        .ok (.bool (negated != found)) w₂ ∧
      (found = true ↔ ∃ p ∈ w₂.store.pairs h,
        frame.scope.relate .eq p.2 n w₂.store = .ok true w₂.store) := by
  refine ⟨w₂.store.contains h n, ?_, (Store.contains_iff container).trans ?_⟩
  · unfold Frame.value
    rw [Step.bind_of_ok hh, Step.bind_of_ok hn]
    rfl
  · have same (v : Value) : w₂.store.same v n = true ↔
        frame.scope.relate .eq v n w₂.store = .ok true w₂.store := Scope.same_iff lax plain
    simp only [same]

def barePage : Frame :=
  ⟨⟨{}, fun _ => .ok "", .empty, (Registry.ofExtensions [.core]).1, Container.method?⟩, "",
    ⟨"page", "", .skip, none, 1, 1, []⟩, 0, []⟩

def pairWorld : World := ⟨⟨#[⟨[.int 7, .int 1], 0⟩], #[], #[], 0, 0⟩, [], 0, 0⟩

def twoItems : Expr := .array [.constant (.int 7), .constant (.int 1)]

/-- The last item of an array is not missing from it, and a loop meets a value equal to it. -/
theorem Frame.member_iff_array :
    barePage.value Render.noCalls (.member true (.constant (.int 1)) twoItems) World.start =
        .ok (.bool false) pairWorld ∧
      ∃ p ∈ pairWorld.store.pairs (.list 0),
        barePage.scope.relate .eq p.2 (.int 1) pairWorld.store = .ok true pairWorld.store := by
  have shown : barePage.value Render.noCalls (.member true (.constant (.int 1)) twoItems) World.start =
      .ok (.bool false) pairWorld := rfl
  have array : barePage.value Render.noCalls twoItems World.start = .ok (.list 0) pairWorld := rfl
  have item : barePage.value Render.noCalls (.constant (.int 1)) pairWorld =
      .ok (.int 1) pairWorld := rfl
  obtain ⟨found, answer, met⟩ :=
    Frame.member_iff rfl array item rfl (fun _ _ same => by cases same) true
  cases found with
  | false => cases answer.symm.trans shown
  | true => exact ⟨shown, met.1 rfl⟩

end Stencil
