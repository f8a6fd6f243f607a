import Stencil.Proofs.Loading
import Stencil.Proofs.Registry

/-!
# Chains of templates

A template that extends another one, which extends a third, and so on: a chain. Its templates are
numbered from the one that is rendered, which is at level 0. This file says what a chain is and
which definition of a block counts in it; `Proofs/Inheritance.lean` shows that rendering keeps to it.
-/

namespace Stencil

open List

/-- Templates that extend each other: each one names the next by a constant text, and the last one
extends nothing. The next one is what is found in a cache under that name. -/
inductive Lineage (env : Environment) (cache : List (String × Template)) : List Template → Prop
  | last {t : Template} (parent : t.parent = none) : Lineage env cache [t]
  | step {t p : Template} {rest : List Template} {name source : String}
      (parent : t.parent = some (.constant (.text name))) (given : env.source name = .ok source)
      (found : cache.lookup (Environment.unitName name source) = some p)
      (next : Lineage env cache (p :: rest)) : Lineage env cache (t :: p :: rest)

namespace Lineage

variable {env : Environment} {cache : List (String × Template)} {ts : List Template}

theorem level (chain : Lineage env cache ts) {i : Nat} {t : Template} (ht : ts[i]? = some t) :
    (t.parent = none ∧ ts.drop (i + 1) = []) ∨
      ∃ p name source, ts[i + 1]? = some p ∧ t.parent = some (.constant (.text name)) ∧
        env.source name = .ok source ∧
        cache.lookup (Environment.unitName name source) = some p := by
  induction chain generalizing i with
  | last parent =>
    cases i with
    | zero =>
      cases ht
      exact Or.inl ⟨parent, rfl⟩
    | succ i => cases ht
  | @step t p rest name source parent given found _ ih =>
    cases i with
    | zero =>
      cases ht
      exact Or.inr ⟨p, name, source, rfl, parent, given, found⟩
    | succ i => exact ih ht

end Lineage

/-! ## Definitions of a block -/

/-- The first template of a list that defines a block, with its level and the code. The list starts
at level `i`. -/
def firstDefinition? (name : String) : Nat → List Template → Option (Nat × Template × Stmt)
  | _, [] => none
  | i, t :: rest => match t.blocks.lookup name with
    | some body => some (i, t, body)
    | none => firstDefinition? name (i + 1) rest

/-- The definition of a block at the lowest level from `i` on. -/
def definition? (ts : List Template) (name : String) (i : Nat) : Option (Nat × Template × Stmt) :=
  firstDefinition? name i (ts.drop i)

theorem getElem?_take {ts : List Template} {j m : Nat} {t : Template}
    (ht : (ts.take m)[j]? = some t) : j < m ∧ ts[j]? = some t := by
  rw [List.getElem?_take] at ht
  split at ht
  · next hj => exact ⟨hj, ht⟩
  · cases ht

section Definitions

variable {ts : List Template} {name : String} {i j : Nat} {t : Template} {body : Stmt}

theorem firstDefinition?_append (name : String) (i : Nat) (xs ys : List Template) :
    firstDefinition? name i (xs ++ ys) =
      (firstDefinition? name i xs).or (firstDefinition? name (i + xs.length) ys) := by
  induction xs generalizing i with
  | nil => rfl
  | cons x xs ih =>
    simp only [cons_append, firstDefinition?, length_cons]
    cases x.blocks.lookup name with
    | some body => rfl
    | none =>
      rw [ih, Nat.add_assoc, Nat.add_comm 1]

/-- **The definition that counts** is in a template of the chain that defines the block, and no
template at a lower level does. -/
theorem firstDefinition?_eq_some (found : firstDefinition? name i ts = some (j, t, body)) :
    i ≤ j ∧ ts[j - i]? = some t ∧ t.blocks.lookup name = some body ∧
      ∀ k t', k < j - i → ts[k]? = some t' → t'.blocks.lookup name = none := by
  induction ts generalizing i with
  | nil => cases found
  | cons x xs ih =>
    rw [firstDefinition?] at found
    cases hx : x.blocks.lookup name with
    | some b =>
      rw [hx] at found
      cases found
      refine ⟨Nat.le_refl _, by simp, hx, fun k t' hk => ?_⟩
      omega
    | none =>
      rw [hx] at found
      obtain ⟨hij, hj, hbody, lower⟩ := ih found
      obtain ⟨d, rfl⟩ : ∃ d, j = i + 1 + d := ⟨j - (i + 1), by omega⟩
      refine ⟨by omega, ?_, hbody, fun k t' hk ht' => ?_⟩
      · rw [show i + 1 + d - i = d + 1 by omega, getElem?_cons_succ]
        rwa [show i + 1 + d - (i + 1) = d by omega] at hj
      · cases k with
        | zero =>
          cases ht'
          exact hx
        | succ k => exact lower k t' (by omega) ht'

theorem lookup_of_firstDefinition?_eq_none (none : firstDefinition? name i ts = none) (ht : t ∈ ts) :
    t.blocks.lookup name = .none := by
  induction ts generalizing i with
  | nil => cases ht
  | cons x xs ih =>
    rw [firstDefinition?] at none
    cases hx : x.blocks.lookup name with
    | some b =>
      rw [hx] at none
      cases none
    | none =>
      rw [hx] at none
      rcases mem_cons.1 ht with rfl | ht
      · exact hx
      · exact ih none ht

theorem definition?_eq_of_none {k : Nat} (hk : k ≤ ts.length)
    (none : firstDefinition? name 0 (ts.take k) = none) :
    definition? ts name 0 = definition? ts name k := by
  have split := firstDefinition?_append name 0 (ts.take k) (ts.drop k)
  rw [take_append_drop, none, Option.none_or, length_take, Nat.min_eq_left hk,
    Nat.zero_add] at split
  exact split

theorem definition?_eq_of_take_none {m : Nat} (ht : ts[i]? = some t) (him : i ≤ m)
    (none : firstDefinition? name 0 (ts.take m) = none) :
    definition? ts name 0 = definition? ts name i := by
  obtain ⟨hi, -⟩ := List.getElem?_eq_some_iff.1 ht
  refine definition?_eq_of_none (Nat.le_of_lt hi) ?_
  have split := firstDefinition?_append name 0 ((ts.take m).take i) ((ts.take m).drop i)
  rw [take_append_drop, none, take_take, Nat.min_eq_left him] at split
  exact (Option.or_eq_none_iff.1 split.symm).1

theorem definition?_of_take {m : Nat}
    (found : firstDefinition? name 0 (ts.take m) = some (j, t, body)) :
    definition? ts name 0 = some (j, t, body) := by
  have split := firstDefinition?_append name 0 (ts.take m) (ts.drop m)
  rw [take_append_drop, found, Option.some_or] at split
  exact split

theorem definition?_succ (ht : ts[i]? = some t) :
    definition? ts name i = match t.blocks.lookup name with
      | some body => some (i, t, body)
      | none => definition? ts name (i + 1) := by
  obtain ⟨hi, rfl⟩ := List.getElem?_eq_some_iff.1 ht
  unfold definition?
  rw [drop_eq_getElem_cons hi, firstDefinition?]

end Definitions

/-! ## Blocks in force -/

/-- Blocks in force that stand for the first `m` levels of a chain. -/
def InForce (ts : List Template) (m : Nat) (blocks : Blocks) : Prop :=
  ∀ name, blocks.lookup name =
    (firstDefinition? name 0 (ts.take m)).map fun (_, t, body) => .code t body

/-- Whether the blocks of a level can be left out when the first `m` levels are in force: they are
among them, or every block it defines is defined there. -/
def dispensable (ts : List Template) (i m : Nat) : Bool :=
  i < m || match ts[i]? with
    | some t => t.blocks.all fun b => (firstDefinition? b.1 0 (ts.take m)).isSome
    | none => true

theorem Template.lookup_ownBlocks (t : Template) (name : String) :
    t.ownBlocks.lookup name = (t.blocks.lookup name).map (.code t) := by
  unfold Template.ownBlocks
  induction t.blocks with
  | nil => rfl
  | cons b bs ih =>
    rw [map_cons, lookup_cons, lookup_cons]
    cases name == b.1 with
    | true => rfl
    | false => exact ih

theorem firstDefinition?_take_max {ts : List Template} {i m : Nat} {t : Template}
    (ht : ts[i]? = some t) (him : i ≤ m) (name : String) :
    firstDefinition? name 0 (ts.take (max m (i + 1))) =
      (firstDefinition? name 0 (ts.take m)).or
        ((t.blocks.lookup name).map fun body => (i, t, body)) := by
  obtain ⟨hi, rfl⟩ := List.getElem?_eq_some_iff.1 ht
  rcases Nat.eq_or_lt_of_le him with rfl | him
  · rw [Nat.max_eq_right (Nat.le_succ i), take_succ_eq_append_getElem hi,
      firstDefinition?_append, length_take, Nat.min_eq_left (Nat.le_of_lt hi), Nat.zero_add,
      firstDefinition?]
    cases ts[i].blocks.lookup name with
    | some | none => rfl
  · rw [Nat.max_eq_left him]
    cases found : firstDefinition? name 0 (ts.take m) with
    | some d => rfl
    | none =>
      have mem : ts[i] ∈ ts.take m := mem_take_iff_getElem.2 ⟨i, by omega, rfl⟩
      rw [lookup_of_firstDefinition?_eq_none found mem]
      rfl

namespace InForce

variable {ts : List Template} {m i : Nat} {blocks : Blocks} {t : Template}

theorem nil : InForce ts 0 [] := fun _ => rfl

theorem atop (h : InForce ts m blocks) (ht : ts[i]? = some t) (him : i ≤ m) :
    InForce ts (max m (i + 1)) (blocks.atop t.ownBlocks) := by
  intro name
  rw [Blocks.atop, lookup_append, h name, t.lookup_ownBlocks, firstDefinition?_take_max ht him]
  cases firstDefinition? name 0 (ts.take m) with
  | some d => rfl
  | none =>
    cases t.blocks.lookup name with
    | some | none => rfl

theorem skip (h : InForce ts m blocks) (ht : ts[i]? = some t) (him : i ≤ m)
    (hi : dispensable ts i m = true) : InForce ts (max m (i + 1)) blocks := by
  intro name
  rw [h name, firstDefinition?_take_max ht him]
  cases found : firstDefinition? name 0 (ts.take m) with
  | some d => rfl
  | none =>
    cases hb : t.blocks.lookup name with
    | none => rfl
    | some body =>
      -- the level is above the first `m`, and it defines a block that they do not define
      exfalso
      unfold dispensable at hi
      rcases Bool.or_eq_true_iff.1 hi with below | defined
      · have mem : t ∈ ts.take m :=
          mem_take_iff_getElem.2 (by
            obtain ⟨hlt, rfl⟩ := List.getElem?_eq_some_iff.1 ht
            exact ⟨i, by have := of_decide_eq_true below; omega, rfl⟩)
        rw [lookup_of_firstDefinition?_eq_none found mem] at hb
        cases hb
      · rw [ht] at defined
        have := all_eq_true.1 defined (name, body) (mem_of_lookup hb)
        rw [found] at this
        cases this

end InForce
end Stencil
