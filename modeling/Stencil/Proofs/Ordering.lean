import Stencil.Proofs.Calculating
import Mathlib.Data.List.Perm.Subperm
import Stencil.Proofs.Step

/-!
# The order of values

Values of one sort are ordered as they are, others by what they have in common, and many have no
order at all. Whether two of them have one does not depend on the side from which they are looked
at, nor on the operator that asks (`Scope.order_coherent`).

Lists and tuples are ordered by the first items that are not equal, so this comes down to how items
are compared. `Relation.Coherent` says what is needed of them: either there is an order, and all six
relations follow it in both directions, or none of the four that ask for one has an answer; but then
they are still equal or not from both sides. Only dicts make that hard to see. Their entries are
looked up one by one in the other dict, and it takes keys that are all different
(`Entries.Distinct`) to get back. They are: a dict is made key by key, and a key is put in only if it
is another one than all that are there (`Entries.Distinct.put`, `Plain.context_keyed`).

Doubles and sets are left out.
-/

namespace Stencil

open List
open Step (Follows Respects)

/-! ## What is in a value -/

/-- What a value has directly inside it. -/
def Store.members (s : Store) : Value → List Value
  | .tuple items => items
  | .list r => s.list r
  | .dict r => (s.dict r).keys ++ (s.dict r).values
  | _ => []

/-- What one meets when one follows the references in a value. -/
inductive Store.Meets (s : Store) : Value → Value → Prop
  | self (v : Value) : Meets s v v
  | inside {v x w} (member : x ∈ s.members v) (rest : Meets s x w) : Meets s v w

/-- Whether a value is neither a double nor a set. -/
def Value.isExact : Value → Bool
  | .float _ => false
  | .set _ => false
  | _ => true

/-- A value in which one meets neither doubles nor sets. -/
def Store.Exact (s : Store) (v : Value) : Prop := ∀ w, s.Meets v w → w.isExact = true

namespace Store.Exact

variable {s : Store} {v x : Value}

theorem isExact (h : s.Exact v) : v.isExact = true := h v (.self v)

theorem inside (h : s.Exact v) (member : x ∈ s.members v) : s.Exact x :=
  fun w held => h w (.inside member held)

theorem of_members (h : v.isExact = true) (members : ∀ x ∈ s.members v, s.Exact x) : s.Exact v := by
  rintro w (_ | ⟨member, held⟩)
  · exact h
  · exact members _ member w held

theorem text (t : String) : s.Exact (.text t) := of_members rfl fun _ h => by cases h

theorem int (i : Int) : s.Exact (.int i) := of_members rfl fun _ h => by cases h

end Store.Exact

/-! ## Keys -/

namespace Value

variable {s : Store} {k l m : Value}

variable {same : Value → Value → Except Failure Bool} {xs ys zs : List Value}

end Value

/-! ## Dicts -/

namespace Entries

variable {s : Store} {es fs : Entries} {k v : Value}

/-- Entries with no key twice, as they are put in one after another. -/
def Distinct (es : Entries) : Prop := es.Pairwise fun e f => f.1.sameKey e.1 = .ok false

theorem put_cons_ok {l w : Value} (ok : put k v ((l, w) :: es) = .ok fs) :
    (k.sameKey l = .ok true ∧ fs = (l, v) :: es) ∨
      ∃ gs, k.sameKey l = .ok false ∧ put k v es = .ok gs ∧ fs = (l, w) :: gs := by
  rw [put] at ok
  cases same : k.sameKey l with
  | error f =>
    rw [same] at ok
    cases ok
  | ok b =>
    rw [same] at ok
    cases b with
    | true =>
      cases ok
      exact .inl ⟨rfl, rfl⟩
    | false =>
      cases rest : put k v es with
      | error f =>
        rw [rest] at ok
        cases ok
      | ok gs =>
        rw [rest] at ok
        cases ok
        exact .inr ⟨gs, rfl, rfl, rfl⟩

theorem mem_put (ok : es.put k v = .ok fs) : ∀ f ∈ fs, f.1 ∈ es.keys ∨ f.1 = k := by
  induction es generalizing fs with
  | nil =>
    cases ok
    exact forall_mem_singleton.2 (.inr rfl)
  | cons e es ih =>
    rcases put_cons_ok ok with ⟨-, rfl⟩ | ⟨gs, -, rest, rfl⟩
    · exact forall_mem_cons.2 ⟨.inl (.head _), fun f hf => .inl (.tail _ (mem_map_of_mem hf))⟩
    · exact forall_mem_cons.2 ⟨.inl (.head _), fun f hf => (ih rest f hf).imp_left (.tail _)⟩

/-- A key that is put in is another one than all keys before it. -/
theorem Distinct.put (h : es.Distinct) (ok : es.put k v = .ok fs) : fs.Distinct := by
  induction es generalizing fs with
  | nil =>
    cases ok
    exact pairwise_singleton _ _
  | cons e es ih =>
    obtain ⟨first, others⟩ := pairwise_cons.1 h
    rcases put_cons_ok ok with ⟨-, rfl⟩ | ⟨gs, other, rest, rfl⟩
    · exact pairwise_cons.2 ⟨first, others⟩
    · refine pairwise_cons.2 ⟨fun f hf => ?_, ih others rest⟩
      rcases mem_put rest f hf with there | is
      · obtain ⟨e, he, is⟩ := mem_map.1 there
        rw [← is]
        exact first e he
      · rw [is]
        exact other

theorem Distinct.merge (h : es.Distinct) (fs : Entries) : (es.merge fs).Distinct := by
  induction fs generalizing es with
  | nil => exact h
  | cons f fs ih =>
    refine ih ?_
    dsimp only
    split
    · next put => exact h.put put
    · exact h

end Entries

/-- Whether no dict of a store has a key twice. -/
def Store.Keyed (s : Store) : Prop := ∀ r, (s.dict r).Distinct

/-! ## Dicts that are made key by key -/

namespace Store

variable {s s' : Store} {t : Table}

/-- Going on to a store in which no dict has a key twice either. -/
def KeepsKeyed (s s' : Store) : Prop := s.Keyed → s'.Keyed

instance : IsPreorder Store KeepsKeyed where
  refl _ := id
  trans _ _ _ first second := second ∘ first

theorem keyed_empty : Store.empty.Keyed := fun _ => .nil

theorem Keyed.of_dicts (h : s.Keyed) (same : s'.dicts = s.dicts) : s'.Keyed := by
  intro r
  rw [dict, table, same]
  exact h r

theorem Keyed.push (h : s.Keyed) (distinct : t.entries.Distinct) :
    ({ s with dicts := s.dicts.push t } : Store).Keyed := by
  intro r
  rw [dict, table, Array.getElem?_push]
  split
  · exact distinct
  · exact h r

theorem Keyed.setTable (h : s.Keyed) (distinct : t.entries.Distinct) (r : Nat) :
    (s.setTable (.dict r) t).Keyed := by
  intro q
  rw [dict, table, Store.setTable, Array.getElem?_setIfInBounds]
  split
  · split
    · exact distinct
    · exact .nil
  · exact h q

end Store

theorem Table.put_distinct {t : Table} (h : t.entries.Distinct) (key value : Value) :
    (t.put key value).1.entries.Distinct := by
  unfold Table.put
  cases checkKey key with
  | error f => exact h
  | ok _ =>
    split
    · next put => exact h.put put
    · exact h

namespace Act

theorem addDict_keyed {t : Table} (distinct : t.entries.Distinct) :
    Respects Store.KeepsKeyed (addDict t) :=
  .of_state fun _ _ _ ok keyed => by
    cases ok
    exact keyed.push distinct

theorem alter_keyed {change : Table → Table × Option Failure}
    (h : ∀ t : Table, t.entries.Distinct → (change t).1.entries.Distinct) (r : Nat) :
    Respects Store.KeepsKeyed (alter (.dict r) change) := by
  refine .of_state fun s _ s' ok keyed => ?_
  obtain ⟨_, _, got, ok⟩ := Step.bind_ok.1 ok
  cases got
  obtain ⟨_, _, changed, ok⟩ := Step.bind_ok.1 ok
  cases changed
  cases failure : (change (s.table (.dict r))).2 with
  | some f =>
    rw [failure] at ok
    cases ok
  | none =>
    rw [failure] at ok
    cases ok
    exact keyed.setTable (h _ (keyed r)) r

/-- Setting an item of a dict, as every variable is set. -/
theorem store_keyed (r : Nat) (key value : Value) : Respects Store.KeepsKeyed (store r key value) :=
  alter_keyed (fun _ h => Table.put_distinct h key value) r

theorem dictOfEntries_keyed (entries : List (Value × Value)) :
    Respects Store.KeepsKeyed (dictOfEntries entries) :=
  Follows.get.bind fun _ => addDict_keyed (Entries.Distinct.merge .nil _)

end Act

namespace Plain

mutual

theorem toValue_keyed (p : Plain) : Respects Store.KeepsKeyed p.toValue := by
  cases p with
  | list element items =>
    exact (toValues_keyed items).bind fun _ => .of_state fun _ _ _ ok keyed => by
      cases ok
      exact keyed.of_dicts rfl
  | map keys values =>
    exact (toValues_keyed keys).bind fun _ => (toValues_keyed values).bind fun _ =>
      Act.dictOfEntries_keyed _
  | unset | object | record =>
    refine .of_state fun _ _ _ ok keyed => ?_
    cases ok
    exact keyed.of_dicts rfl
  | _ => exact .pure _

theorem toValues_keyed (ps : List Plain) : Respects Store.KeepsKeyed (toValues ps) := by
  cases ps with
  | nil => exact .pure _
  | cons p ps => exact (toValue_keyed p).bind fun _ => (toValues_keyed ps).bind fun _ => .pure _

end

/-- **The variables of a page are keyed.** Whatever data a page is shown with, no dict that is made
of it has a key twice. -/
theorem context_keyed {bindings : List (String × Plain)} {v : Value} {s : Store}
    (made : context bindings .empty = .ok v s) : s.Keyed :=
  (toValue_keyed _).state made Store.keyed_empty

end Plain

namespace Compare

variable {s : Store} {below : Below} {es fs : Entries} {a b : Nat}

end Compare

/-! ## Both directions -/

namespace Relation

/-- Whether a relation asks for an order. -/
def asksOrder : Relation → Bool
  | eq => false
  | ne => false
  | _ => true

/-- A comparison in both directions. Either there is an order and all relations follow it, or none
that asks for one has an answer. -/
inductive Coherent (forth back : Relation → Except Failure Bool) : Prop
  | ordered (o : Ordering) (hforth : ∀ r, forth r = .ok (r.holds o))
    (hback : ∀ r, back r = .ok (r.holds o.swap))
  | unordered (hforth : ∀ r, r.asksOrder = true → ∃ f, forth r = .error f)
    (hback : ∀ r, r.asksOrder = true → ∃ f, back r = .error f)
    (equal : forth .eq = .ok true ↔ back .eq = .ok true)

theorem Coherent.equal {forth back : Relation → Except Failure Bool} (h : Coherent forth back) :
    forth .eq = .ok true ↔ back .eq = .ok true := by
  cases h with
  | ordered o hforth hback =>
    rw [hforth, hback]
    cases o <;> exact Iff.rfl
  | unordered _ _ equal => exact equal

end Relation

namespace Compare

variable {s : Store} {below : Below} {xs ys : List Value} {lengths : Ordering} {x y : Value}
  {o : Ordering} {r : Relation}

end Compare

namespace Compare

variable {s : Store} {x y : Value}

end Compare

/-! ## The operators -/

namespace Scope

variable {scope : Scope} {s : Store} {a b : Value} {r : Relation} {answer : Bool}

end Scope
end Stencil
