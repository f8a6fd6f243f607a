import Stencil.Proofs.Storage

/-!
# The variables around a loop

A loop relies on two variables, `loop` and `_parent`, which it saves when it starts and restores when
it ends. Restoring goes by the printed names of variables, so it can be misled by a key that only
prints like one of them: a tuple with one text, or a template.
-/

namespace Stencil

open List Entries Loop

/-! ## Names and keys -/

def Loop.free (name : String) : Bool := name != "loop" && name != "_parent"

namespace Value

def printedKey (k : Value) : String :=
  (k.view (fun _ => .null) (fun _ => .null) fun _ => .null).print

def name? : Value → Option String
  | .text name => some name
  | _ => none

theorem name?_eq_some {k : Value} {name : String} : k.name? = some name ↔ k = .text name := by
  cases k with
  | text other =>
    constructor
    · rintro ⟨rfl⟩
      rfl
    · rintro ⟨rfl⟩
      rfl
  | _ => exact ⟨nofun, nofun⟩

/-- Whether a key is a name, or else one that does not print like `loop` or `_parent`. -/
def honest (k : Value) : Bool :=
  k.name?.isSome || k.unhashable?.isNone && free k.printedKey

mutual

theorem view_of_hashable (k : Value) (hk : k.unhashable? = none) (l d s l' d' s' : Nat → Datum) :
    k.view l d s = k.view l' d' s' := by
  cases k with
  | tuple items =>
    rw [view, view, viewAll_of_hashable items hk l d s l' d' s']
  | list | dict | set => cases hk
  | _ => rfl

theorem viewAll_of_hashable (ks : List Value) (hks : firstUnhashable? ks = none)
    (l d s l' d' s' : Nat → Datum) : viewAll l d s ks = viewAll l' d' s' ks := by
  cases ks with
  | nil => rfl
  | cons k ks =>
    obtain ⟨hk, hks⟩ := Option.or_eq_none_iff.1 hks
    rw [viewAll, viewAll, view_of_hashable k hk l d s l' d' s',
      viewAll_of_hashable ks hks l d s l' d' s']

end

theorem print_of_hashable (s : Store) {k : Value} (hk : k.unhashable? = none) :
    (s.view k).print = k.printedKey := by
  rw [printedKey, Store.view, Store.viewWithin, view_of_hashable k hk]

/-- An honest key that prints like `loop` or `_parent` is that name. -/
theorem eq_text_of_print (s : Store) {k : Value} (hk : k.honest = true)
    (hfree : free (s.view k).print = false) : k = .text (s.view k).print := by
  cases hname : k.name? with
  | some name =>
    obtain rfl := name?_eq_some.1 hname
    rw [Store.view_text]
    rfl
  | none =>
    rw [honest, hname] at hk
    obtain ⟨hashable, free⟩ := Bool.and_eq_true_iff.1 hk
    rw [print_of_hashable s (Option.isNone_iff_eq_none.1 hashable), free] at hfree
    cases hfree

end Value

/-! ## Proper variables -/

namespace Entries

variable {name : String} {v : Value} {es : Entries}

def names (es : Entries) : List String := es.filterMap fun e => e.1.name?

theorem mem_names : name ∈ es.names ↔ ∃ v, (Value.text name, v) ∈ es := by
  constructor
  · intro h
    obtain ⟨⟨k, v⟩, he, hname⟩ := mem_filterMap.1 h
    obtain rfl : k = .text name := Value.name?_eq_some.1 hname
    exact ⟨v, he⟩
  · rintro ⟨v, he⟩
    exact mem_filterMap.2 ⟨_, he, rfl⟩

theorem names_cons (e : Value × Value) (es : Entries) :
    names (e :: es) = e.1.name?.toList ++ names es := by
  unfold names
  rw [filterMap_cons]
  cases e.1.name? <;> rfl

/-- Whether the keys of variables are honest, and each name is there once. -/
def proper (es : Entries) : Bool := es.all (fun e => e.1.honest) && decide es.names.Nodup

theorem proper_iff : es.proper = true ↔ (∀ e ∈ es, e.1.honest = true) ∧ es.names.Nodup := by
  rw [proper, Bool.and_eq_true_iff, all_eq_true, decide_eq_true_iff]

theorem mem_assign {e : Value × Value} (he : e ∈ es.assign name v) :
    e.1 = .text name ∨ e ∈ es := by
  induction es with
  | nil =>
    rw [mem_singleton.1 he]
    exact Or.inl rfl
  | cons f es ih =>
    rw [assign] at he
    split at he
    · next same =>
      rcases mem_cons.1 he with rfl | he
      · exact Or.inl (Value.sameScalar_text.1 same)
      · exact Or.inr (mem_cons_of_mem _ he)
    · rcases mem_cons.1 he with rfl | he
      · exact Or.inr mem_cons_self
      · exact (ih he).imp_right (mem_cons_of_mem _)

theorem names_assign (name : String) (v : Value) (es : Entries) :
    (es.assign name v).names = es.names ∨
      name ∉ es.names ∧ (es.assign name v).names = es.names ++ [name] := by
  induction es with
  | nil => exact Or.inr ⟨not_mem_nil, rfl⟩
  | cons e es ih =>
    rw [assign]
    split
    · exact Or.inl rfl
    · next different =>
      rw [names_cons, names_cons]
      rcases ih with same | ⟨new, more⟩
      · exact Or.inl (congrArg _ same)
      · refine Or.inr ⟨fun h => ?_, by rw [more, append_assoc]⟩
        rcases mem_append.1 h with first | rest
        · have is := Value.name?_eq_some.1 (Option.mem_toList.1 first)
          exact different (Value.sameScalar_text.2 is)
        · exact new rest

theorem proper_assign (h : es.proper = true) : (es.assign name v).proper = true := by
  obtain ⟨honest, once⟩ := proper_iff.1 h
  refine proper_iff.2 ⟨fun e he => ?_, ?_⟩
  · rcases mem_assign he with is | old
    · rw [is]
      rfl
    · exact honest e old
  · rcases names_assign name v es with same | ⟨new, more⟩
    · rw [same]
      exact once
    · rw [more]
      refine nodup_append.2 ⟨once, pairwise_singleton _ _, fun a ha b hb => ?_⟩
      rw [mem_singleton.1 hb]
      rintro rfl
      exact new ha

theorem without_sublist (name : String) (es : Entries) : (es.without name).Sublist es := by
  induction es with
  | nil => exact List.Sublist.refl _
  | cons e es ih =>
    rw [without]
    split
    · exact sublist_cons_self e es
    · exact ih.cons_cons e

theorem not_mem_names_without (once : es.names.Nodup) : name ∉ (es.without name).names := by
  induction es with
  | nil => exact not_mem_nil
  | cons e es ih =>
    rw [names_cons] at once
    rw [without]
    split
    · next same =>
      rw [Value.sameScalar_text.1 same] at once
      exact (nodup_cons.1 once).1
    · next different =>
      rw [names_cons]
      intro h
      rcases mem_append.1 h with first | rest
      · have is := Value.name?_eq_some.1 (Option.mem_toList.1 first)
        exact different (Value.sameScalar_text.2 is)
      · exact ih (nodup_append.1 once).2.1 rest

theorem proper_of_sublist {fs : Entries} (h : es.proper = true) (hsub : fs.Sublist es) :
    fs.proper = true := by
  obtain ⟨honest, once⟩ := proper_iff.1 h
  exact proper_iff.2 ⟨fun e he => honest e (hsub.subset he), once.sublist (hsub.filterMap _)⟩

theorem removed (removal : List String) :
    ∀ {es : Entries}, es.names.Nodup →
      (removal.foldl (fun es name => erase (.text name) es) es).Sublist es ∧
        ∀ name ∈ removal, name ∉ (removal.foldl (fun es name => erase (.text name) es) es).names := by
  induction removal with
  | nil => exact fun _ => ⟨List.Sublist.refl _, forall_mem_nil _⟩
  | cons first rest ih =>
    intro es once
    rw [foldl_cons, erase_text]
    have sub := without_sublist first es
    obtain ⟨fewer, gone⟩ := ih (once.sublist (sub.filterMap _))
    refine ⟨fewer.trans sub, fun name hname => ?_⟩
    rcases mem_cons.1 hname with rfl | hrest
    · exact fun h => not_mem_names_without once ((fewer.filterMap _).subset h)
    · exact gone name hrest

theorem proper_mapValues (f : Value × Value → Value) :
    proper (es.map fun e => (e.1, f e)) = es.proper := by
  have names_map : names (es.map fun e => (e.1, f e)) = es.names := filterMap_map
  rw [proper, proper, names_map, all_map]
  rfl

end Entries

/-! ## Leaving a loop -/

namespace Loop

variable {name : String} {keep : List (String × Value)} {now parent : Entries}

theorem lastOf_kept (s : Store) (hnow : now.proper = true) (hname : free name = false)
    (gone : name ∉ now.names) : lastOf name (kept s parent now) = none := by
  refine lookup_eq_none_iff.2 fun e he => ?_
  obtain ⟨⟨k, v⟩, hk, rfl⟩ := mem_map.1 (mem_reverse.1 he)
  have old : (k, v) ∈ now := (mem_filter.1 hk).1
  refine bne_iff_ne.2 fun is => gone (mem_names.2 ⟨v, ?_⟩)
  dsimp only at is
  rw [is] at hname ⊢
  rw [← Value.eq_text_of_print s ((proper_iff.1 hnow).1 _ old) hname]
  exact old

theorem get?_restored (s : Store) : (restored s keep parent).get? (.text name) =
    (parent.get? (.text name)).map fun v => (lastOf name keep).getD v := by
  induction parent with
  | nil => rfl
  | cons e es ih =>
    change get? _ ((e.1, _) :: restored s keep es) = _
    rw [get?_cons, ih]
    change _ = (get? _ ((e.1, e.2) :: es)).map _
    rw [get?_cons]
    split
    · next same =>
      rw [Value.sameScalar_text.1 same, Store.view_text]
      rfl
    · rfl

end Loop

namespace Scope

variable {scope : Scope} {c p : Nat} {targets : List String} {s s' : Store}

theorem parent_of_leaveScope (ok : scope.leaveScope c targets s = .ok () s') :
    ∃ p, (s.dict c).get? (.text "_parent") = some (.dict p) := by
  obtain ⟨es, _, got, ok⟩ := Step.bind_ok.1 ok
  cases got
  cases found : (s.dict c).get? (.text "_parent") with
  | none =>
    rw [found] at ok
    cases ok
  | some v =>
    rw [found] at ok
    cases v with
    | dict p => exact ⟨p, rfl⟩
    | _ => cases ok

/-- Leaving a loop changes nothing but its variables, which become those that were saved, with what
was kept for them. -/
theorem leaveScope_eq (scope : Scope) (targets : List String)
    (hp : (s.dict c).get? (.text "_parent") = some (.dict p)) :
    ∃ s₁ s₂ s', scope.leaveScope c targets s = .ok () s' ∧ s.Agree (· = c) s' ∧
      (p ≠ c → c < s.dicts.size → s'.dict c = restored s₂ (kept s₁ (s.dict p)
        ((ownNames targets).foldl (fun es name => erase (.text name) es) (s.dict c)))
        (s.dict p)) := by
  let left := (ownNames targets).foldl (fun es name => erase (.text name) es) (s.dict c)
  let s₁ := s.setTable (.dict c) ⟨left, (s.table (.dict c)).isBlank && left.isEmpty⟩
  let s₂ := s₁.setTable (.dict c) ⟨[], (s₁.table (.dict c)).isBlank && true⟩
  let back := restored s₂ (kept s₁ (s₁.dict p) left) (s₂.dict p)
  let s₃ := s₂.setTable (.dict c) ⟨back, (s₂.table (.dict c)).isBlank && back.isEmpty⟩
  have ran : scope.leaveScope c targets s = .ok () s₃ := by
    refine Step.bind_ok.2 ⟨s.dict c, s, rfl, ?_⟩
    rw [hp]
    rfl
  refine ⟨s₁, s₂, s₃, ran, ?_, fun hpc hc => ?_⟩
  · have same : s.Agree (· = c) s := .refl s
    exact ((same.setDict (fun _ => rfl) _).setDict (fun _ => rfl) _).setDict (fun _ => rfl) _
  · have first : s₁.dict p = s.dict p := Store.dict_setTable_of_ne hpc
    have second : s₂.dict p = s.dict p := (Store.dict_setTable_of_ne hpc).trans first
    have size : c < s₂.dicts.size := by
      simpa only [s₂, s₁, Store.setTable, Array.size_setIfInBounds] using hc
    have after : s₃.dict c = back := Store.dict_setTable_self size
    rw [after]
    dsimp only [back]
    rw [first, second]

theorem leaveScope_agree (ok : scope.leaveScope c targets s = .ok () s') : s.Agree (· = c) s' := by
  obtain ⟨p, hp⟩ := parent_of_leaveScope ok
  obtain ⟨_, _, _, ran, agree, -⟩ := scope.leaveScope_eq targets hp
  cases ran.symm.trans ok
  exact agree

/-- **Leaving a loop brings `loop` and `_parent` back**, from proper variables. -/
theorem leaveScope_ok (scope : Scope) (targets : List String)
    (hp : (s.dict c).get? (.text "_parent") = some (.dict p)) (hpc : p ≠ c)
    (hc : c < s.dicts.size) (now : (s.dict c).proper = true) (before : (s.dict p).proper = true) :
    ∃ s', scope.leaveScope c targets s = .ok () s' ∧ s.Agree (· = c) s' ∧
      (s'.dict c).proper = true ∧ ∀ name, free name = false →
        (s'.dict c).get? (.text name) = (s.dict p).get? (.text name) := by
  obtain ⟨s₁, s₂, s', ran, agree, after⟩ := scope.leaveScope_eq targets hp
  obtain ⟨fewer, gone⟩ := removed (ownNames targets) (proper_iff.1 now).2
  refine ⟨s', ran, agree, ?_, fun name hname => ?_⟩
  · rw [after hpc hc]
    exact (proper_mapValues _).trans before
  · have own : name ∈ ownNames targets := by
      rw [free, Bool.and_eq_false_iff, bne_eq_false_iff_eq, bne_eq_false_iff_eq] at hname
      rcases hname with rfl | rfl
      · exact mem_append_left _ (by decide)
      · exact mem_append_left _ (by decide)
    rw [after hpc hc, get?_restored,
      lastOf_kept s₁ (proper_of_sublist now fewer) hname (gone name own)]
    exact Option.map_id_apply

end Scope
end Stencil
