import Stencil.Proofs.Step

/-!
# What happens to containers

Most steps leave all containers as they are and at most add new ones; some change one dict. Here it
is said what that means, and what setting a variable does to the dict that holds it.

## What is here

* `Store.Agree touched s s'`: every container of `s` is in `s'` as it was, except for the dicts that
  `touched` names. It is a preorder, and each primitive change of a store comes with a lemma that says
  which dicts it touches. `Store.Extends` is the case where nothing is touched.
* `newList_extends` and the like: the steps that only add a container or a handle.
* `Entries.assign`, `Entries.without`: what storing and removing a variable does to the entries of a
  dict. A name has a hash and equals no other key, so neither can fail (`put_text`, `take_text`).
* `Store.assign`: a store in which a variable has got a value, with what is in each dict then.
* `Loop.put_ok`, `Loop.need_ok`: what it means that a variable has been set, or read and was there.
-/

namespace Stencil

open Value
open Step (Follows Respects)

/-! ## Stores that agree -/

/-- Every container of a store, except perhaps some dicts, is in another store as it was. -/
structure Store.Agree (touched : Nat → Prop) (s s' : Store) : Prop where
  lists : ∀ r < s.lists.size, s'.lists[r]? = s.lists[r]?
  dicts : ∀ r < s.dicts.size, ¬ touched r → s'.dicts[r]? = s.dicts[r]?
  sets : ∀ r < s.sets.size, s'.sets[r]? = s.sets[r]?
  listsSize : s.lists.size ≤ s'.lists.size
  dictsSize : s.dicts.size ≤ s'.dicts.size
  setsSize : s.sets.size ≤ s'.sets.size

abbrev Store.Extends : Store → Store → Prop := Store.Agree fun _ => False

namespace Store.Agree

variable {touched : Nat → Prop} {s s' s'' : Store}

theorem refl (s : Store) : Agree touched s s :=
  ⟨fun _ _ => rfl, fun _ _ _ => rfl, fun _ _ => rfl, Nat.le_refl _, Nat.le_refl _, Nat.le_refl _⟩

theorem trans (h : Agree touched s s') (h' : Agree touched s' s'') : Agree touched s s'' where
  lists r hr := (h'.lists r (Nat.lt_of_lt_of_le hr h.listsSize)).trans (h.lists r hr)
  dicts r hr ht := (h'.dicts r (Nat.lt_of_lt_of_le hr h.dictsSize) ht).trans (h.dicts r hr ht)
  sets r hr := (h'.sets r (Nat.lt_of_lt_of_le hr h.setsSize)).trans (h.sets r hr)
  listsSize := Nat.le_trans h.listsSize h'.listsSize
  dictsSize := Nat.le_trans h.dictsSize h'.dictsSize
  setsSize := Nat.le_trans h.setsSize h'.setsSize

instance : IsPreorder Store (Store.Agree touched) where
  refl := refl
  trans _ _ _ := trans

theorem mono {more : Nat → Prop} (hmore : ∀ r < s.dicts.size, touched r → more r)
    (h : Agree touched s s') : Agree more s s' :=
  { h with dicts := fun r hr ht => h.dicts r hr fun old => ht (hmore r hr old) }

theorem of_extends (h : Extends s s') : Agree touched s s' := h.mono fun _ _ => False.elim

theorem dict (h : Agree touched s s') {r : Nat} (hr : r < s.dicts.size) (ht : ¬ touched r) :
    s'.dict r = s.dict r := by
  change ((s'.dicts[r]?).getD _).entries = ((s.dicts[r]?).getD _).entries
  rw [h.dicts r hr ht]

/-- A new list gets a number that no other list has. -/
theorem pushList (h : Agree touched s s') (cell : ListCell) :
    Agree touched s { s' with lists := s'.lists.push cell } :=
  { h with
    lists := fun r hr => by
      rw [Array.getElem?_push_lt (Nat.lt_of_lt_of_le hr h.listsSize), ← h.lists r hr]
      exact (Array.getElem?_eq_getElem _).symm
    listsSize := by
      rw [Array.size_push]
      exact Nat.le_succ_of_le h.listsSize }

theorem pushDict (h : Agree touched s s') (t : Table) :
    Agree touched s { s' with dicts := s'.dicts.push t } :=
  { h with
    dicts := fun r hr ht => by
      rw [Array.getElem?_push_lt (Nat.lt_of_lt_of_le hr h.dictsSize), ← h.dicts r hr ht]
      exact (Array.getElem?_eq_getElem _).symm
    dictsSize := by
      rw [Array.size_push]
      exact Nat.le_succ_of_le h.dictsSize }

theorem setList (h : Agree touched s s') {r : Nat} (hr : s.lists.size ≤ r) (cell : ListCell) :
    Agree touched s (s'.setListCell r cell) :=
  { h with
    lists := fun q hq => by
      rw [Store.setListCell, Array.getElem?_setIfInBounds_ne (by omega)]
      exact h.lists q hq
    listsSize := by
      rw [Store.setListCell, Array.size_setIfInBounds]
      exact h.listsSize }

/-- A dict may be changed if it is among those that are touched, or was made in between. -/
theorem setDict (h : Agree touched s s') {r : Nat} (hr : r < s.dicts.size → touched r) (t : Table) :
    Agree touched s (s'.setTable (.dict r) t) :=
  { h with
    dicts := fun q hq ht => by
      have other : r ≠ q := by
        rintro rfl
        exact ht (hr hq)
      rw [Store.setTable, Array.getElem?_setIfInBounds_ne other]
      exact h.dicts q hq ht
    dictsSize := by
      rw [Store.setTable, Array.size_setIfInBounds]
      exact h.dictsSize }

end Store.Agree

/-! ## Steps that only add containers -/

namespace Act

open Store (Extends)

theorem newList_extends (items : List Value) : Respects Extends (newList items) := by
  refine Follows.of_state fun s v s' h => ?_
  cases h
  exact (Store.Agree.refl s).pushList _

theorem addDict_extends (t : Table) : Respects Extends (addDict t) := by
  refine Follows.of_state fun s v s' h => ?_
  cases h
  exact (Store.Agree.refl s).pushDict _

theorem newHandle_extends : Respects Extends newHandle := by
  refine Follows.of_state fun s v s' h => ?_
  cases h
  exact { Store.Agree.refl s with }

theorem handleOfCopy_extends (o : Object) : Respects Extends (handleOfCopy o) := by
  refine Follows.of_state fun s v s' h => ?_
  cases h
  exact { Store.Agree.refl s with }

end Act

/-! ## Variables -/

/-- Looking for a name never fails: to compare it with a key takes no hash of a container. -/
theorem Value.sameKey_text (name : String) (k : Value) :
    (text name).sameKey k = .ok ((text name).sameScalar k) := by
  cases k <;> rfl

theorem Value.sameScalar_text {name : String} {k : Value} :
    (text name).sameScalar k = true ↔ k = .text name := by
  cases k with
  | text t =>
    change (name == t) = true ↔ _
    rw [beq_iff_eq]
    constructor
    · rintro rfl
      rfl
    · rintro ⟨rfl⟩
      rfl
  | _ => exact ⟨nofun, nofun⟩

namespace Entries

/-- The entries of a dict in which a variable has got a value: in the place it has, or at the end. -/
def assign (name : String) (v : Value) : Entries → Entries
  | [] => [(.text name, v)]
  | (k, old) :: es =>
    if (text name).sameScalar k then (k, v) :: es else (k, old) :: assign name v es

/-- The entries of a dict from which a variable has been taken. -/
def without (name : String) : Entries → Entries
  | [] => []
  | (k, v) :: es => if (text name).sameScalar k then es else (k, v) :: without name es

variable {name other : String} {v : Value} {k : Value} {es : Entries}

theorem get?_cons : get? (.text name) ((k, v) :: es) =
    if (text name).sameScalar k then some v else get? (.text name) es := by
  unfold get?
  rw [find]
  simp only [sameKey_text, bind, Except.bind]
  cases (text name).sameScalar k <;> rfl

theorem put_text : es.put (.text name) v = .ok (es.assign name v) := by
  induction es with
  | nil => rfl
  | cons e es ih =>
    rw [put, assign]
    simp only [sameKey_text, bind, Except.bind, ih]
    cases (text name).sameScalar e.1 <;> rfl

theorem take_text : ∃ taken, es.take (.text name) = .ok taken ∧
    (taken.map (·.2)).getD es = es.without name := by
  induction es with
  | nil => exact ⟨none, rfl, rfl⟩
  | cons e es ih =>
    obtain ⟨taken, htaken, rest⟩ := ih
    rw [take, without]
    simp only [sameKey_text, bind, Except.bind, htaken]
    cases (text name).sameScalar e.1 with
    | true => exact ⟨_, rfl, rfl⟩
    | false =>
      refine ⟨_, rfl, ?_⟩
      rw [if_neg Bool.false_ne_true, ← rest]
      cases taken <;> rfl

theorem erase_text : es.erase (.text name) = es.without name := by
  obtain ⟨taken, htaken, rest⟩ : ∃ taken, es.take (.text name) = .ok taken ∧ _ := take_text
  unfold erase
  rw [htaken, ← rest]
  cases taken <;> rfl

theorem get?_assign_self : (es.assign name v).get? (.text name) = some v := by
  have self : (text name).sameScalar (.text name) = true := sameScalar_text.2 rfl
  induction es with
  | nil => rw [assign, get?_cons, if_pos self]
  | cons e es ih =>
    rw [assign]
    split
    · next same => rw [get?_cons, if_pos same]
    · next different => rw [get?_cons, if_neg different, ih]

/-- The other variables keep their values. -/
theorem get?_assign_of_ne (h : other ≠ name) :
    (es.assign name v).get? (.text other) = es.get? (.text other) := by
  have different : ∀ {k : Value}, (text name).sameScalar k = true →
      ¬ (text other).sameScalar k = true := by
    intro k hk hk'
    cases (sameScalar_text.1 hk).symm.trans (sameScalar_text.1 hk')
    exact h rfl
  induction es with
  | nil => rw [assign, get?_cons, if_neg (different (sameScalar_text.2 rfl))]
  | cons e es ih =>
    rw [assign]
    split
    · next same => rw [get?_cons, get?_cons, if_neg (different same), if_neg (different same)]
    · rw [get?_cons, get?_cons, ih]

theorem mem_keys_of_get? (h : es.get? (.text name) = some v) : (text name, v) ∈ es := by
  induction es with
  | nil => cases h
  | cons e es ih =>
    rw [get?_cons] at h
    split at h
    · next same =>
      cases h
      rw [← sameScalar_text.1 same]
      exact List.mem_cons_self
    · exact List.mem_cons_of_mem _ (ih h)

end Entries

namespace Store

/-- A store in which a dict has these entries. -/
def fill (s : Store) (r : Nat) (es : Entries) : Store := s.setTable (.dict r) (.ready es)

/-- A store in which more or fewer loops go through a list. -/
def mark (s : Store) (q : Nat) (change : Nat → Nat) : Store :=
  s.setListCell q { s.listCell q with loops := change (s.listCell q).loops }

/-- A store in which a variable has got a value; the variables are those in the dict `c`. -/
def assign (s : Store) (c : Nat) (name : String) (v : Value) : Store :=
  s.fill c ((s.dict c).assign name v)

variable {s : Store} {c r : Nat} {name : String} {v : Value} {touched : Nat → Prop} {s' : Store}
  {es : Entries} {t : Table}

theorem Agree.fill (h : Agree touched s s') (hr : r < s.dicts.size → touched r) :
    Agree touched s (s'.fill r es) :=
  h.setDict hr _

theorem Agree.assign (h : Agree touched s s') (hc : c < s.dicts.size → touched c) :
    Agree touched s (s'.assign c name v) :=
  h.fill hc

theorem dict_setTable_self (hc : c < s.dicts.size) :
    (s.setTable (.dict c) t).dict c = t.entries := by
  change (((s.dicts.setIfInBounds c t)[c]?).getD _).entries = _
  rw [Array.getElem?_setIfInBounds_self_of_lt hc]
  rfl

theorem dict_setTable_of_ne (h : r ≠ c) : (s.setTable (.dict c) t).dict r = s.dict r := by
  change (((s.dicts.setIfInBounds c t)[r]?).getD _).entries = _
  rw [Array.getElem?_setIfInBounds_ne h.symm]
  rfl

theorem dict_fill_self (hr : r < s.dicts.size) : (s.fill r es).dict r = es :=
  dict_setTable_self hr

theorem dict_fill_of_ne (h : r ≠ c) : (s.fill c es).dict r = s.dict r :=
  dict_setTable_of_ne h

theorem size_fill : (s.fill r es).dicts.size = s.dicts.size :=
  Array.size_setIfInBounds

theorem assign_fill (hr : r < s.dicts.size) :
    (s.fill r es).assign r name v = s.fill r (es.assign name v) := by
  rw [assign, dict_fill_self hr]
  change { s with dicts := (s.dicts.setIfInBounds r _).setIfInBounds r _ } = _
  rw [Array.setIfInBounds_setIfInBounds]
  rfl

theorem dict_assign_self (hc : c < s.dicts.size) :
    (s.assign c name v).dict c = (s.dict c).assign name v :=
  dict_fill_self hc

theorem dict_assign_of_ne (h : r ≠ c) : (s.assign c name v).dict r = s.dict r :=
  dict_fill_of_ne h

theorem size_assign : (s.assign c name v).dicts.size = s.dicts.size := size_fill

theorem dict_pushDict_self :
    ({ s with dicts := s.dicts.push t } : Store).dict s.dicts.size = t.entries := by
  change (((s.dicts.push t)[s.dicts.size]?).getD _).entries = _
  rw [Array.getElem?_push_size]
  rfl

theorem list_pushList_self {cell : ListCell} :
    ({ s with lists := s.lists.push cell } : Store).list s.lists.size = cell.items := by
  change (((s.lists.push cell)[s.lists.size]?).getD _).items = _
  rw [Array.getElem?_push_size]
  rfl

end Store

namespace Loop

variable {s s' : Store} {c : Nat} {name : String} {v : Value}

/-- Setting a variable never fails. -/
theorem put_eq (c : Nat) (name : String) (v : Value) (s : Store) :
    put c name v s = .ok () (s.assign c name v) := by
  have stored : (s.table (.dict c)).put (.text name) v =
      (.ready ((s.dict c).assign name v), none) := by
    unfold Table.put
    rw [show (s.table (.dict c)).entries = s.dict c from rfl, Entries.put_text]
    rfl
  refine Step.bind_ok.2 ⟨s.table (.dict c), s, rfl, ?_⟩
  dsimp only
  rw [stored]
  rfl

theorem put_ok : put c name v s = .ok () s' ↔ s.assign c name v = s' := by
  rw [put_eq]
  constructor
  · intro h
    cases h
    rfl
  · rintro rfl
    rfl

theorem need_ok : need c name s = .ok v s' ↔ (s.dict c).get? (.text name) = some v ∧ s = s' := by
  unfold need
  rw [Step.bind_ok]
  constructor
  · rintro ⟨_, _, got, ok⟩
    cases got
    cases found : (s.dict c).get? (.text name) with
    | some u =>
      rw [found] at ok
      cases ok
      exact ⟨rfl, rfl⟩
    | none =>
      rw [found] at ok
      cases ok
  · rintro ⟨found, rfl⟩
    refine ⟨s.dict c, s, rfl, ?_⟩
    rw [found]
    rfl

end Loop

namespace Eval

variable {w w' : World} {c : Nat} {name : String} {v : Value}

theorem put_ok :
    ofAct (Loop.put c name v) w = .ok () w' ↔ { w with store := w.store.assign c name v } = w' := by
  rw [ofAct_ok]
  constructor
  · rintro ⟨s, put, rfl⟩
    rw [Loop.put_ok.1 put]
  · rintro rfl
    exact ⟨_, Loop.put_eq c name v w.store, rfl⟩

theorem need_ok : ofAct (Loop.need c name) w = .ok v w' ↔
    (w.store.dict c).get? (.text name) = some v ∧ w = w' := by
  rw [ofAct_ok]
  constructor
  · rintro ⟨s, needed, rfl⟩
    obtain ⟨got, rfl⟩ := Loop.need_ok.1 needed
    exact ⟨got, rfl⟩
  · rintro ⟨got, rfl⟩
    exact ⟨w.store, Loop.need_ok.2 ⟨got, rfl⟩, rfl⟩

end Eval
end Stencil
