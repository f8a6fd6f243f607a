import Stencil.Proofs.Likeness
import Stencil.Proofs.Step

/-!
# Steps that mirror each other

Two steps mirror each other if, from states that are alike, they come to results that are alike, or
to the same failure, and to states that are alike again. This file says so for the steps on a store
that everything else is made of: reading and changing containers, making new ones, and checking
arguments.
-/

namespace Stencil

open List

namespace Step

variable {ε σ α β γ δ : Type} {E : σ → σ → Prop} {R : α → β → Prop} {S : γ → δ → Prop}

inductive Outcome (E : σ → σ → Prop) (R : α → β → Prop) :
    EStateM.Result ε σ α → EStateM.Result ε σ β → Prop
  | ok {a : α} {b : β} {s t : σ} (related : R a b) (states : E s t) :
    Outcome E R (.ok a s) (.ok b t)
  | error (e : ε) {s t : σ} (states : E s t) : Outcome E R (.error e s) (.error e t)

theorem Outcome.cases {x : EStateM.Result ε σ α} {y : EStateM.Result ε σ β} (h : Outcome E R x y) :
    (∃ a b s t, x = .ok a s ∧ y = .ok b t ∧ R a b ∧ E s t) ∨
      ∃ e s t, x = .error e s ∧ y = .error e t ∧ E s t := by
  cases h with
  | ok related states => exact Or.inl ⟨_, _, _, _, rfl, rfl, related, states⟩
  | error e states => exact Or.inr ⟨e, _, _, rfl, rfl, states⟩

theorem Outcome.map {x : EStateM ε σ α} {y : EStateM ε σ α} {s t : σ} (g : α → γ)
    (h : Outcome E Eq (x s) (y t)) :
    Outcome E Eq ((x >>= fun a => pure (g a)) s) ((y >>= fun a => pure (g a)) t) := by
  rcases h.cases with ⟨a, b, s', t', hx, hy, rfl, states⟩ | ⟨e, s', t', hx, hy, states⟩
  · rw [bind_of_ok hx, bind_of_ok hy]
    exact .ok rfl states
  · rw [bind_error.2 (Or.inl hx), bind_error.2 (Or.inl hy)]
    exact .error e states

/-- From states that are alike, two steps come to outcomes that are alike. -/
def Mirrors (E : σ → σ → Prop) (R : α → β → Prop) (x : EStateM ε σ α) (y : EStateM ε σ β) : Prop :=
  ∀ s t, E s t → Outcome E R (x s) (y t)

namespace Mirrors

variable {x : EStateM ε σ α} {y : EStateM ε σ β}

theorem pure {a : α} {b : β} (related : R a b) :
    Mirrors E R (Pure.pure a : EStateM ε σ α) (Pure.pure b) :=
  fun _ _ states => .ok related states

theorem throw (e : ε) :
    Mirrors E R (MonadExcept.throw e : EStateM ε σ α) (MonadExcept.throw e : EStateM ε σ β) :=
  fun _ _ states => .error e states

/-- Steps that mirror each other go on to mirror each other. -/
theorem bind {f : α → EStateM ε σ γ} {g : β → EStateM ε σ δ} (hxy : Mirrors E R x y)
    (hfg : ∀ a b, R a b → Mirrors E S (f a) (g b)) : Mirrors E S (x >>= f) (y >>= g) := by
  intro s t states
  rcases (hxy s t states).cases with ⟨a, b, s₁, t₁, hx, hy, related, states₁⟩ |
    ⟨e, s₁, t₁, hx, hy, states₁⟩
  · rcases (hfg a b related s₁ t₁ states₁).cases with ⟨c, d, s₂, t₂, hf, hg, related₂, states₂⟩ |
      ⟨e, s₂, t₂, hf, hg, states₂⟩
    · rw [bind_ok.2 ⟨a, s₁, hx, hf⟩, bind_ok.2 ⟨b, t₁, hy, hg⟩]
      exact .ok related₂ states₂
    · rw [bind_error.2 (Or.inr ⟨a, s₁, hx, hf⟩), bind_error.2 (Or.inr ⟨b, t₁, hy, hg⟩)]
      exact .error e states₂
  · rw [bind_error.2 (Or.inl hx), bind_error.2 (Or.inl hy)]
    exact .error e states₁

theorem bind_eq {z : EStateM ε σ α} {f : α → EStateM ε σ γ} {g : α → EStateM ε σ δ}
    (hxz : Mirrors E Eq x z) (hfg : ∀ a, Mirrors E S (f a) (g a)) :
    Mirrors E S (x >>= f) (z >>= g) := by
  refine hxz.bind fun a b same => ?_
  rw [same]
  exact hfg b

theorem map {f : α → γ} {g : β → δ} (hxy : Mirrors E R x y) (hfg : ∀ a b, R a b → S (f a) (g b)) :
    Mirrors E S (f <$> x) (g <$> y) := by
  rw [map_eq_pure_bind, map_eq_pure_bind]
  exact hxy.bind fun a b related => .pure (hfg a b related)

/-- Steps that look at the state go on alike if they do so for states that are alike. -/
theorem get_bind {f : σ → EStateM ε σ γ} {g : σ → EStateM ε σ δ}
    (h : ∀ s t, E s t → Mirrors E S (f s) (g t)) : Mirrors E S (get >>= f) (get >>= g) := by
  intro s t states
  exact h s t states s t states

theorem change {f g : σ → σ} (h : ∀ s t, E s t → E (f s) (g t)) :
    Mirrors E Eq (modify f : EStateM ε σ PUnit) (modify g) :=
  fun s t states => .ok rfl (h s t states)

theorem put {s t : σ} (states : E s t) : Mirrors E Eq (set s : EStateM ε σ PUnit) (set t) :=
  fun _ _ _ => .ok rfl states

theorem tryCatch {h : ε → EStateM ε σ α} {h' : ε → EStateM ε σ β} (hxy : Mirrors E R x y)
    (hh : ∀ e, Mirrors E R (h e) (h' e)) :
    Mirrors E R (MonadExcept.tryCatch x h) (MonadExcept.tryCatch y h') := by
  intro s t states
  rcases (hxy s t states).cases with ⟨a, b, s₁, t₁, hx, hy, related, states₁⟩ |
    ⟨e, s₁, t₁, hx, hy, states₁⟩
  · rw [tryCatch_of_ok hx, tryCatch_of_ok hy]
    exact .ok related states₁
  · rw [tryCatch_of_error hx, tryCatch_of_error hy]
    exact hh e s₁ t₁ states₁

theorem ite {c : Prop} [Decidable c] {x' : EStateM ε σ α} {y' : EStateM ε σ β}
    (h : Mirrors E R x y) (h' : Mirrors E R x' y') :
    Mirrors E R (if c then x else x') (if c then y else y') := by
  split
  · exact h
  · exact h'

end Mirrors
end Step

variable {p : Pairing}

/-! ## Containers -/

namespace Act

open Step (Mirrors)

variable {α β : Type} {R : α → β → Prop} {v w x y : Value} {vs ws : List Value} {es fs : Entries}
  {a b : Nat} {ref ref' : TableRef} {t u : Table}

abbrev Mirrors (p : Pairing) (R : α → β → Prop) (x : Act α) (y : Act β) : Prop :=
  Step.Mirrors (Store.Alike p) R x y

theorem mirrors_ofExcept {x : Except Failure α} {y : Except Failure β} (h : Both R x y) :
    Mirrors p R (ofExcept x) (ofExcept y) := by
  cases h with
  | ok related => exact .pure related
  | error e => exact .throw e

theorem mirrors_check (x : Except Failure α) : Mirrors p Eq (ofExcept x) (ofExcept x) := by
  cases x with
  | ok a => exact .pure rfl
  | error e => exact .throw e

theorem mirrors_newList (h : Forall₂ (Value.Alike p) vs ws) :
    Mirrors p (Value.Alike p) (newList vs) (newList ws) := by
  intro s t stores
  exact .ok (.list (stores.lists.next 0))
    { stores with lists := stores.lists.push p.lists_unique ⟨h, rfl⟩ }

theorem mirrors_addDict (h : Table.Alike p t u) :
    Mirrors p (Value.Alike p) (addDict t) (addDict u) := by
  intro s t stores
  exact .ok (.dict (stores.dicts.next 0))
    { stores with dicts := stores.dicts.push p.dicts_unique h }

theorem mirrors_newDict (h : Entries.Alike p es fs) :
    Mirrors p (Value.Alike p) (newDict es) (newDict fs) :=
  mirrors_addDict (Table.ready_alike h)

theorem mirrors_addSet (h : Table.Alike p t u) :
    Mirrors p (Value.Alike p) (addSet t) (addSet u) := by
  intro s t stores
  exact .ok (.set (stores.sets.next 0))
    { stores with sets := stores.sets.push p.sets_unique h }

theorem mirrors_listItems (paired : p.lists a b) :
    Mirrors p (Forall₂ (Value.Alike p)) (listItems a) (listItems b) :=
  .get_bind fun _ _ stores => .pure (stores.list paired)

theorem mirrors_dictEntries (paired : p.dicts a b) :
    Mirrors p (Entries.Alike p) (dictEntries a) (dictEntries b) :=
  .get_bind fun _ _ stores => .pure (stores.dict paired)

theorem mirrors_table (paired : TableRef.Alike p ref ref') :
    Mirrors p (Table.Alike p) (table ref) (table ref') :=
  .get_bind fun _ _ stores => .pure (stores.table paired)

theorem mirrors_putTable (paired : TableRef.Alike p ref ref') (h : Table.Alike p t u) :
    Mirrors p Eq (putTable ref t) (putTable ref' u) :=
  .change fun _ _ stores => stores.setTable paired h

theorem mirrors_alter (paired : TableRef.Alike p ref ref')
    {change change' : Table → Table × Option Failure}
    (h : ∀ t u, Table.Alike p t u → Table.ChangeAlike p (change t) (change' u)) :
    Mirrors p Eq (alter ref change) (alter ref' change') := by
  refine (mirrors_table paired).bind fun t u tables => ?_
  obtain ⟨t₁, u₁, failure, here, there, alike⟩ := (h t u tables).cases
  rw [here, there]
  refine (mirrors_putTable paired alike).bind fun _ _ _ => ?_
  cases failure with
  | some f => exact .throw f
  | none => exact .pure rfl

theorem mirrors_putDict (paired : p.dicts a b) (h : Entries.Alike p es fs) :
    Mirrors p Eq (putDict a es) (putDict b fs) := by
  refine (mirrors_table (.dict paired)).bind fun t u tables => ?_
  refine mirrors_putTable (.dict paired) ⟨h, ?_⟩
  rw [tables.isBlank, h.isEmpty]

theorem mirrors_lookup (paired : p.dicts a b) (key : Value.Alike p v w) :
    Mirrors p (Option.Rel (Value.Alike p)) (lookup a v) (lookup b w) :=
  (mirrors_table (.dict paired)).bind fun _ _ tables => mirrors_ofExcept (tables.find key)

theorem mirrors_store (paired : p.dicts a b) (key : Value.Alike p v w) (value : Value.Alike p x y) :
    Mirrors p Eq (store a v x) (store b w y) :=
  mirrors_alter (.dict paired) fun _ _ tables => tables.put key value

theorem mirrors_newHandle : Mirrors p p.handles newHandle newHandle := by
  intro s t stores
  refine .ok (stores.handles 0) { stores with handles := fun k => ?_ }
  have := stores.handles (k + 1)
  rwa [Nat.add_comm k 1, ← Nat.add_assoc, ← Nat.add_assoc] at this

theorem mirrors_handle (met : p.objects) (o : Object) :
    Mirrors p (Value.Alike p) (handle o) (handle o) :=
  mirrors_newHandle.bind fun _ _ paired => .pure (.object o met paired)

theorem mirrors_handleOfCopy (met : p.objects) (o : Object) :
    Mirrors p (Value.Alike p) (handleOfCopy o) (handleOfCopy o) := by
  refine .get_bind fun s t stores => ?_
  rw [stores.copies met]
  exact (Step.Mirrors.put { stores with copies := fun _ => rfl }).bind fun _ _ _ =>
    mirrors_handle met _

theorem mirrors_iterate (hvw : Value.Alike p v w) :
    Mirrors p (Value.Alike p) (iterate v) (iterate w) :=
  .get_bind fun _ _ stores => mirrors_newList
    (rel_map (fun _ _ pair => .tuple (.cons pair.1 (.cons pair.2 .nil))) (stores.pairs hvw))

end Act

/-! ## Arguments -/

namespace Arguments

variable {v w : Value} {vs ws : List Value} {named named' : List (String × Value)}

theorem takes_alike (want : Want) (h : Value.Alike p v w) : want.takes v = want.takes w := by
  cases want <;> cases h <;> rfl

theorem complaint?_alike (want : Want) (h : Value.Alike p v w) :
    want.complaint? v = want.complaint? w := by
  unfold Want.complaint?
  rw [takes_alike want h, h.type]
  cases want with
  | int => cases h <;> rfl
  | _ => rfl

theorem checkFrom_alike (name : String) (i : Nat) (wants : List Want)
    (h : Forall₂ (Value.Alike p) vs ws) : checkFrom name i wants vs = checkFrom name i wants ws := by
  induction wants generalizing i vs ws with
  | nil => rfl
  | cons want wants ih =>
    cases h with
    | nil => rfl
    | cons head tail => rw [checkFrom, checkFrom, complaint?_alike want head, ih (i + 1) tail]

def BoundAlike (p : Pairing) (a b : Parameter × Option Value) : Prop :=
  a.1 = b.1 ∧ Option.Rel (Value.Alike p) a.2 b.2

theorem bindPositional_alike (callee : String) (parameters : List Parameter)
    (h : Forall₂ (Value.Alike p) vs ws) :
    Both (Forall₂ (BoundAlike p)) (bindPositional callee parameters vs)
      (bindPositional callee parameters ws) := by
  induction parameters generalizing vs ws with
  | nil => exact .ok .nil
  | cons parameter parameters ih =>
    cases h with
    | nil =>
      refine .ok (forall₂_same.2 fun entry member => ?_)
      obtain ⟨q, -, rfl⟩ := mem_map.1 member
      exact ⟨rfl, .none⟩
    | cons head tail =>
      rw [bindPositional, bindPositional, complaint?_alike parameter.want head]
      split
      · exact .error _
      · exact (ih tail).bind fun _ _ rest => .ok (.cons ⟨rfl, .some head⟩ rest)

theorem proposals_alike {b c : Bound} (h : Forall₂ (BoundAlike p) b c) :
    proposals b = proposals c := by
  rw [proposals, proposals, h.length_eq, map_eq_of_rel h fun _ _ entry => by rw [entry.1]]

theorem setNamed_alike (callee name : String) (h : Value.Alike p v w) {b c : Bound}
    (bound : Forall₂ (BoundAlike p) b c) :
    Both (Option.Rel (Forall₂ (BoundAlike p))) (setNamed callee name v b)
      (setNamed callee name w c) := by
  induction bound with
  | nil => exact .ok .none
  | @cons entry entry' rest rest' head tail ih =>
    obtain ⟨q, old⟩ := entry
    obtain ⟨q', old'⟩ := entry'
    obtain ⟨rfl, olds⟩ := head
    unfold setNamed
    by_cases here : (q.name == name) = true
    · rw [if_pos here, if_pos here, complaint?_alike q.want h]
      cases olds with
      | some related => exact .error _
      | none =>
        cases q.want.complaint? w with
        | some text => exact .error _
        | none => exact .ok (.some (.cons ⟨rfl, .some h⟩ tail))
    · rw [if_neg here, if_neg here]
      refine ih.bind fun _ _ set => ?_
      cases set with
      | some related => exact .ok (.some (.cons ⟨rfl, olds⟩ related))
      | none => exact .ok .none

theorem bindNamed_alike (callee : String) {b c : Bound} (bound : Forall₂ (BoundAlike p) b c)
    (h : Forall₂ (Value.NamedAlike p) named named') :
    Both (Forall₂ (BoundAlike p)) (bindNamed callee b named) (bindNamed callee c named') := by
  induction h generalizing b c with
  | nil => exact .ok bound
  | @cons entry entry' _ _ head tail ih =>
    obtain ⟨name, v⟩ := entry
    obtain ⟨name', w⟩ := entry'
    obtain ⟨rfl, alike⟩ := head
    rw [bindNamed, bindNamed, proposals_alike bound]
    refine (setNamed_alike callee name alike bound).bind fun _ _ set => ?_
    cases set with
    | some related => exact ih related
    | none => exact .error _

theorem missing?_alike {b c : Bound} (h : Forall₂ (BoundAlike p) b c) : missing? b = missing? c := by
  induction h with
  | nil => rfl
  | @cons entry entry' rest rest' head tail ih =>
    obtain ⟨⟨name, want, optional⟩, old⟩ := entry
    obtain ⟨q', old'⟩ := entry'
    obtain ⟨rfl, olds⟩ := head
    cases optional with
    | true => rfl
    | false =>
      cases olds with
      | some related => exact ih
      | none => rfl

theorem bind_alike (callee : String) (parameters : List Parameter)
    (h : Forall₂ (Value.Alike p) vs ws) (hnamed : Forall₂ (Value.NamedAlike p) named named') :
    Both (Forall₂ (Option.Rel (Value.Alike p))) (bind callee parameters vs named)
      (bind callee parameters ws named') := by
  unfold bind
  rw [h.length_eq]
  by_cases many : parameters.length < ws.length
  · simp only [if_pos many]
    exact .error _
  · simp only [if_neg many]
    refine (bindPositional_alike callee parameters h).bind fun b c bound =>
      (bindNamed_alike callee bound hnamed).bind fun b c bound => ?_
    rw [missing?_alike bound]
    cases missing? c with
    | some q => exact .error _
    | none => exact .ok (rel_map (fun _ _ entry => entry.2) bound)

end Arguments
end Stencil
