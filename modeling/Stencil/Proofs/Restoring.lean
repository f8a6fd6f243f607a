import Stencil.Proofs.Ordering
import Stencil.Proofs.Variables

/-!
# Restoring the variables around a loop

When a loop is left, the variables from before it come back with the values they have now, but those
of the loop itself as they were saved. The values are carried over by the printed form of their
keys. That is right as long as printing tells the keys apart (`Value.Faithful`), which names always
are: then each key gets what was under that same key (`Scope.leaveScope_faithful`).

Keys of other types may print alike, such as the number `1` and the text `"1"`.
-/

namespace Stencil

open List Entries

/-! ## Keys that printing tells apart -/

/-- Keys that are the same just if they print alike. -/
structure Value.Faithful (keys : List Value) : Prop where
  hashable : ∀ k ∈ keys, k.unhashable? = none
  apart : ∀ k ∈ keys, ∀ l ∈ keys, k.sameKey l = .ok (k.printedKey == l.printedKey)

theorem Value.Faithful.of_names {keys : List Value} (h : ∀ k ∈ keys, k.name?.isSome = true) :
    Faithful keys := by
  have text : ∀ k ∈ keys, ∃ name, k = .text name := fun k hk =>
    (Option.isSome_iff_exists.1 (h k hk)).imp fun _ => name?_eq_some.1
  refine ⟨fun k hk => ?_, fun k hk l hl => ?_⟩
  · obtain ⟨name, rfl⟩ := text k hk
    rfl
  · obtain ⟨name, rfl⟩ := text k hk
    obtain ⟨other, rfl⟩ := text l hl
    rfl

namespace Entries

variable {keys : List Value} {es : Entries} {name : String} {k l v : Value}

/-- The first value whose key prints like this. -/
def printed? (name : String) (es : Entries) : Option Value :=
  (es.find? fun e => e.1.printedKey == name).map (·.2)

theorem get?_cons_of_ok {b : Bool} (same : k.sameKey l = .ok b) :
    get? k ((l, v) :: es) = if b then some v else es.get? k := by
  unfold get?
  rw [find, same]
  cases b <;> rfl

theorem get?_eq_printed (faithful : Value.Faithful keys) (hk : k ∈ keys)
    (inside : ∀ e ∈ es, e.1 ∈ keys) : es.get? k = es.printed? k.printedKey := by
  induction es with
  | nil => rfl
  | cons e es ih =>
    obtain ⟨here, rest⟩ := forall_mem_cons.1 inside
    rw [get?_cons_of_ok (l := e.1) (v := e.2) (faithful.apart k hk e.1 here), ih rest, printed?,
      printed?, find?_cons, BEq.comm]
    cases e.1.printedKey == k.printedKey <;> rfl

/-- No two keys of a dict print alike. -/
theorem Distinct.prints (faithful : Value.Faithful keys) (inside : ∀ e ∈ es, e.1 ∈ keys)
    (distinct : es.Distinct) : es.Pairwise fun e f => e.1.printedKey ≠ f.1.printedKey := by
  refine List.Pairwise.imp_of_mem (fun {e f} he hf other alike => ?_) distinct
  rw [faithful.apart f.1 (inside f hf) e.1 (inside e he), alike, beq_self_eq_true] at other
  cases other

theorem names_nodup (prints : es.Pairwise fun e f => e.1.printedKey ≠ f.1.printedKey) :
    es.names.Nodup := by
  refine pairwise_filterMap.2 (prints.imp fun {e f} other a ha b hb => ?_)
  rw [Value.name?_eq_some.1 ha, Value.name?_eq_some.1 hb] at other
  exact other

/-! ## Taking names out -/

theorem get?_eq_none_of_not_mem (h : name ∉ es.names) : es.get? (.text name) = none := by
  cases got : es.get? (.text name) with
  | none => rfl
  | some v => exact absurd (mem_names.2 ⟨v, mem_keys_of_get? got⟩) h

theorem get?_without (other : k.sameKey (.text name) = .ok false) :
    (es.without name).get? k = es.get? k := by
  induction es with
  | nil => rfl
  | cons e es ih =>
    rw [without]
    split
    · next is =>
      rw [← Value.sameScalar_text.1 is] at other
      exact (get?_cons_of_ok (v := e.2) other).symm
    · change get? k ((e.1, e.2) :: without name es) = get? k ((e.1, e.2) :: es)
      cases same : k.sameKey e.1 with
      | ok b => rw [get?_cons_of_ok same, get?_cons_of_ok same, ih]
      | error f => simp only [get?, find, same, bind, Except.bind]

/-- Whether a key is one of some names. -/
def isAmong (names : List String) (k : Value) : Bool := k.name?.any names.contains

theorem isAmong_text (names : List String) : isAmong names (.text name) = names.contains name := rfl

theorem not_among_cons {first : String} {rest : List String} (h : isAmong (first :: rest) k = false) :
    k.sameKey (.text first) = .ok false ∧ isAmong rest k = false := by
  cases k with
  | text name =>
    obtain ⟨other, others⟩ := Bool.or_eq_false_iff.1 h
    exact ⟨congrArg _ other, others⟩
  | _ => exact ⟨rfl, rfl⟩

/-- Of the keys that are left when names are taken out, none is such a name, and the others have the
values they had. -/
theorem get?_removed (removal : List String) (once : es.names.Nodup) (k : Value) :
    (removal.foldl (fun es name => erase (.text name) es) es).get? k =
      if isAmong removal k then none else es.get? k := by
  cases among : isAmong removal k with
  | true =>
    obtain ⟨name, is, gone⟩ := (Option.any_eq_true _ _).1 among
    rw [Value.name?_eq_some.1 is]
    exact get?_eq_none_of_not_mem ((removed removal once).2 name (contains_iff_mem.1 gone))
  | false =>
    induction removal generalizing es with
    | nil => rfl
    | cons first rest ih =>
      obtain ⟨other, others⟩ := not_among_cons among
      rw [foldl_cons, erase_text,
        ih (once.sublist ((without_sublist first es).filterMap _)) others]
      exact get?_without other

end Entries

/-! ## Leaving a loop -/

namespace Loop

variable {name : String} {now parent : Entries}

theorem lastOf_cons (other : String) (v : Value) (keep : List (String × Value)) :
    lastOf name ((other, v) :: keep) =
      (lastOf name keep).or (if name = other then some v else none) := by
  unfold lastOf
  rw [reverse_cons, lookup_append]
  split
  · next is => rw [is, lookup_cons_self]
  · next different =>
    refine congrArg _ (lookup_eq_none_iff.2 fun e he => ?_)
    rw [mem_singleton.1 he]
    exact bne_iff_ne.2 different

theorem kept_cons (s : Store) {k : Value} (hashable : k.unhashable? = none) (v : Value) :
    kept s parent ((k, v) :: now) =
      if (parent.get? k).isSome then (k.printedKey, v) :: kept s parent now
      else kept s parent now := by
  unfold kept
  rcases Bool.eq_false_or_eq_true (parent.get? k).isSome with there | missing
  · rw [if_pos there, filter_cons_of_pos]
    · change ((s.view k).print, v) :: _ = _
      rw [Value.print_of_hashable s hashable]
    · exact there
  · rw [if_neg (Bool.eq_false_iff.1 missing), filter_cons_of_neg]
    exact Bool.eq_false_iff.1 missing

/-- What is kept under a printed form, if just one key has it and that was saved, is the value of
that key. -/
theorem lastOf_kept_eq (s : Store) (hashable : ∀ e ∈ now, e.1.unhashable? = none)
    (prints : now.Pairwise fun e f => e.1.printedKey ≠ f.1.printedKey)
    (saved : ∀ e ∈ now, e.1.printedKey = name → (parent.get? e.1).isSome = true) :
    lastOf name (kept s parent now) = now.printed? name := by
  induction now with
  | nil => rfl
  | cons e now ih =>
    obtain ⟨here, hashable⟩ := forall_mem_cons.1 hashable
    obtain ⟨first, saved⟩ := forall_mem_cons.1 saved
    have rest := ih hashable prints.of_cons saved
    change lastOf name (kept s parent ((e.1, e.2) :: now)) = _
    rw [kept_cons s here]
    rcases Decidable.em (e.1.printedKey = name) with rfl | different
    · have gone : printed? e.1.printedKey now = none := by
        refine Option.map_eq_none_iff.2 (find?_eq_none.2 fun f member => ?_)
        simpa using Ne.symm (rel_of_pairwise_cons prints member)
      rw [if_pos (first rfl), lastOf_cons, rest, gone, if_pos rfl, printed?,
        find?_cons_of_pos (by exact beq_self_eq_true _)]
      rfl
    · rw [printed?, find?_cons_of_neg (by simpa using different), ← printed?, ← rest]
      split
      · rw [lastOf_cons, if_neg (Ne.symm different), Option.or_none]
      · rfl

/-- Each variable from before a loop comes back, with the value it has now unless it is one of the
loop. -/
theorem restored_eq (s s' : Store) (targets : List String) (distinct : now.Distinct)
    (faithful : Value.Faithful (now.keys ++ parent.keys)) :
    restored s (kept s' parent
      ((ownNames targets).foldl (fun es name => erase (.text name) es) now)) parent =
      parent.map fun e => (e.1,
        if isAmong (ownNames targets) e.1 then e.2 else (now.get? e.1).getD e.2) := by
  have old : ∀ e ∈ now, e.1 ∈ now.keys ++ parent.keys := fun e he =>
    mem_append_left _ (mem_map_of_mem he)
  have prints := distinct.prints faithful old
  have once := names_nodup prints
  have fewer := (removed (ownNames targets) once).1
  refine map_congr_left fun e he => ?_
  have key : e.1 ∈ now.keys ++ parent.keys := mem_append_right _ (mem_map_of_mem he)
  -- keys are looked up as they are printed, which is enough since they are faithful
  have found : lastOf e.1.printedKey (kept s' parent
      ((ownNames targets).foldl (fun es name => erase (.text name) es) now)) =
      if isAmong (ownNames targets) e.1 then none else now.get? e.1 := by
    rw [lastOf_kept_eq s' (fun f hf => faithful.hashable _ (old f (fewer.subset hf)))
        (prints.sublist fewer), ← get?_removed _ once]
    · exact (get?_eq_printed faithful key fun f hf => old f (fewer.subset hf)).symm
    · intro f hf alike
      have inside : ∀ e ∈ parent, e.1 ∈ now.keys ++ parent.keys := fun e he =>
        mem_append_right _ (mem_map_of_mem he)
      rw [get?_eq_printed faithful (old f (fewer.subset hf)) inside, printed?,
        Option.isSome_map, find?_isSome]
      exact ⟨e, he, beq_iff_eq.2 alike.symm⟩
  change (e.1, (lastOf (s.view e.1).print _).getD e.2) = _
  rw [Value.print_of_hashable s (faithful.hashable _ key), found]
  split <;> rfl

end Loop

namespace Scope

/-- **Leaving a loop keeps the keys of variables apart**, as long as printing does. The variables are
then those that were saved, in their order. Each has the value that is under its key now, or the one
that was saved if it is a variable of the loop or gone. All other containers stay as they are.

Without saved variables it fails, and changes nothing. -/
theorem leaveScope_faithful (scope : Scope) (targets : List String) (s : Store) (c : Nat) :
    ((∀ p, (s.dict c).get? (.text "_parent") ≠ some (.dict p)) →
      scope.leaveScope c targets s = .error (.raised .noSavedScope scope.template 0 none) s) ∧
    ∀ p, (s.dict c).get? (.text "_parent") = some (.dict p) → p ≠ c → c < s.dicts.size →
      (s.dict c).Distinct → Value.Faithful ((s.dict c).keys ++ (s.dict p).keys) →
      ∃ s', scope.leaveScope c targets s = .ok () s' ∧ s.Agree (· = c) s' ∧
        s'.dict c = (s.dict p).map fun e => (e.1,
          if Entries.isAmong (Loop.ownNames targets) e.1 then e.2
          else ((s.dict c).get? e.1).getD e.2) := by
  refine ⟨fun none => ?_, fun p hp other there distinct faithful => ?_⟩
  · refine Step.bind_error.2 (.inr ⟨_, s, rfl, ?_⟩)
    cases found : (s.dict c).get? (.text "_parent") with
    | none => rfl
    | some v =>
      cases v with
      | dict p => exact absurd found (none p)
      | _ => rfl
  · obtain ⟨s₁, s₂, s', ran, agree, after⟩ := scope.leaveScope_eq targets hp
    refine ⟨s', ran, agree, ?_⟩
    rw [after other there]
    exact Loop.restored_eq s₂ s₁ targets distinct faithful

/-- Variables under a number and a name, and those from before a loop over `x`. -/
def numberedStore : Store where
  lists := #[]
  dicts := #[.ready [(.int 1, .text "a"), (.text "x", .text "b"), (.text "_parent", .dict 1)],
    .ready [(.text "x", .text "y"), (.int 1, .text "z")]]
  sets := #[]
  handles := 0
  copies := 0

theorem leaveScope_faithful_number : ∃ s',
    leaveScope ⟨"page", {}, ⟨#[]⟩, Container.method?⟩ 0 ["x"] numberedStore = .ok () s' ∧
      s'.dict 0 = [(.text "x", .text "y"), (.int 1, .text "a")] := by
  have distinct : (numberedStore.dict 0).Distinct := by
    refine .cons ?_ (.cons ?_ (.cons ?_ .nil))
    · exact forall_mem_cons.2 ⟨rfl, forall_mem_cons.2 ⟨rfl, forall_mem_nil _⟩⟩
    · exact forall_mem_cons.2 ⟨rfl, forall_mem_nil _⟩
    · exact forall_mem_nil _
  have listed : ∀ k ∈ (numberedStore.dict 0).keys ++ (numberedStore.dict 1).keys,
      k = .int 1 ∨ k = .text "x" ∨ k = .text "_parent" := by
    simp [numberedStore, Store.dict, Store.table, Table.ready, Entries.keys]
  have faithful : Value.Faithful ((numberedStore.dict 0).keys ++ (numberedStore.dict 1).keys) := by
    refine ⟨fun k hk => ?_, fun k hk l hl => ?_⟩
    · rcases listed k hk with rfl | rfl | rfl <;> rfl
    · rcases listed k hk with rfl | rfl | rfl <;> rcases listed l hl with rfl | rfl | rfl <;> rfl
  obtain ⟨s', ran, -, after⟩ :=
    (leaveScope_faithful ⟨"page", {}, ⟨#[]⟩, Container.method?⟩ ["x"] numberedStore 0).2 1 rfl
      (by decide) (by decide) distinct faithful
  exact ⟨s', ran, after⟩

end Scope
end Stencil
