import Mathlib.Order.Defs.Unbundled
import Stencil.Render

/-!
# Steps that succeed

Almost everything that is proved of a rendering is about renderings that succeed: what they show,
what they leave in the world, and what another rendering would have done in their place. This file
takes successful steps apart and puts statements about them together.

What is here:

* inversion, one lemma for each way to build a step (`bind_ok`, `tryCatch_ok`, …);
* `Step.Follows S x y`, for steps on the store: whenever `x` succeeds, it leads from a store to one
  that `S` relates to it, and `y` succeeds in the same way;
* `Step.Sim E P x y`, for steps of renderings: from worlds that match by `E`, whenever `x` succeeds,
  `y` gives the same and their worlds match again, unless `y` gives up with a fault in `P`.

A relation `E` that says that two worlds are one, and that it has a property, makes `Sim E P x x` the
statement that `x` keeps the property.
-/

namespace Stencil

theorem Datum.someEndless_eq_any (dicts : Bool) (ds : List Datum) :
    someEndless dicts ds = ds.any (endless dicts) := by
  induction ds with
  | nil => rfl
  | cons d ds ih => rw [someEndless, ih, List.any_cons]

namespace Act

theorem print_eq (v : Value) (s : Store) : print v s =
    if (s.view v).endless false then .error .stuck s else .ok (s.view v).print s := by
  show (if (s.view v).endless false then throw .stuck else pure _ : Act String) s = _
  split <;> rfl

theorem print_text (text : String) (s : Store) : print (.text text) s = .ok text s := rfl

theorem toPlain_eq (v : Value) (s : Store) : toPlain v s =
    if (s.view v).endless true then .error .stuck s else .ok (s.view v).toPlain s := by
  show (if (s.view v).endless true then throw .stuck else pure _ : Act Plain) s = _
  split <;> rfl

end Act

namespace Step

variable {ε σ α β : Type}

/-! ## Taking steps apart -/

variable {a : α} {s s' t : σ} {f : α → EStateM ε σ β} {e : ε} {h : ε → EStateM ε σ α}

theorem pure_ok {b : α} : (pure a : EStateM ε σ α) s = .ok b s' ↔ a = b ∧ s = s' := by
  constructor
  · intro h
    cases h
    exact ⟨rfl, rfl⟩
  · rintro ⟨rfl, rfl⟩
    rfl

variable {x y : EStateM ε σ α}

theorem bind_ok {b : β} : (x >>= f) s = .ok b s' ↔ ∃ a s₁, x s = .ok a s₁ ∧ f a s₁ = .ok b s' := by
  change EStateM.bind x f s = .ok b s' ↔ _
  rw [EStateM.bind]
  cases x s with
  | ok a s₁ =>
    constructor
    · exact fun h => ⟨a, s₁, rfl, h⟩
    · rintro ⟨_, _, ⟨rfl, rfl⟩, h⟩
      exact h
  | error e s₁ => simp

theorem bind_error :
    (x >>= f) s = .error e s' ↔ x s = .error e s' ∨ ∃ a s₁, x s = .ok a s₁ ∧ f a s₁ = .error e
      s' := by
  change EStateM.bind x f s = .error e s' ↔ _
  rw [EStateM.bind]
  cases x s with
  | ok a s₁ =>
    constructor
    · exact fun h => Or.inr ⟨a, s₁, rfl, h⟩
    · rintro (h | ⟨_, _, ⟨rfl, rfl⟩, h⟩)
      · cases h
      · exact h
  | error e₁ s₁ => simp

theorem get_ok : (get : EStateM ε σ σ) s = .ok t s' ↔ s = t ∧ s = s' := pure_ok

theorem throw_ok : (throw e : EStateM ε σ α) s ≠ .ok a s' := by
  intro h
  cases h

theorem tryCatch_of_ok (hx : x s = .ok a s') : (tryCatch x h) s = .ok a s' := by
  change EStateM.tryCatch x h s = _
  delta EStateM.tryCatch
  rw [hx]

theorem tryCatch_of_error (hx : x s = .error e s') : (tryCatch x h) s = h e s' := by
  change EStateM.tryCatch x h s = _
  delta EStateM.tryCatch
  rw [hx]
  rfl

theorem tryCatch_ok :
    (tryCatch x h) s = .ok a s' ↔ x s = .ok a s' ∨ ∃ e s₁, x s = .error e s₁ ∧ h e s₁ = .ok a
      s' := by
  cases hx : x s with
  | ok b s₁ => simp [tryCatch_of_ok hx]
  | error e s₁ =>
    rw [tryCatch_of_error hx]
    constructor
    · exact fun hh => Or.inr ⟨e, s₁, rfl, hh⟩
    · rintro (h | ⟨_, _, ⟨rfl, rfl⟩, h⟩)
      · cases h
      · exact h

theorem tryCatch_error {e' : ε} :
    (tryCatch x h) s = .error e' s' ↔ ∃ e s₁, x s = .error e s₁ ∧ h e s₁ = .error e' s' := by
  cases hx : x s with
  | ok b s₁ => simp [tryCatch_of_ok hx]
  | error e s₁ =>
    rw [tryCatch_of_error hx]
    constructor
    · exact fun hh => ⟨e, s₁, rfl, hh⟩
    · rintro ⟨_, _, ⟨rfl, rfl⟩, h⟩
      exact h

theorem bind_of_ok {s₁ : σ} (hx : x s = .ok a s₁) : (x >>= f) s = f a s₁ := by
  cases hf : f a s₁ with
  | ok b s₂ => exact bind_ok.2 ⟨a, s₁, hx, hf⟩
  | error e s₂ => exact bind_error.2 (Or.inr ⟨a, s₁, hx, hf⟩)

theorem bind_of_error {s₁ : σ} (hx : x s = .error e s₁) : (x >>= f) s = .error e s₁ :=
  bind_error.2 (Or.inl hx)

theorem bind_of_eq {y : EStateM ε σ α} {t : σ} (h : x s = y t) : (x >>= f) s = (y >>= f) t := by
  cases hy : y t with
  | ok a u => exact (bind_of_ok (h.trans hy)).trans (bind_of_ok hy).symm
  | error e u => exact (bind_error.2 (.inl (h.trans hy))).trans (bind_error.2 (.inl hy)).symm

theorem tryCatch_congr (same : x s = y t) : tryCatch x h s = tryCatch y h t := by
  cases hy : y t with
  | ok a s₁ => rw [tryCatch_of_ok (same.trans hy), tryCatch_of_ok hy]
  | error e s₁ => rw [tryCatch_of_error (same.trans hy), tryCatch_of_error hy]

def Gives (x : EStateM ε σ α) (s : σ) (a : α) : Prop := ∃ s', x s = .ok a s'

instance [DecidableEq α] (x : EStateM ε σ α) (s : σ) (a : α) : Decidable (Gives x s a) :=
  match h : x s with
  | .ok b s' =>
    if hb : b = a then .isTrue ⟨s', hb ▸ h⟩
    else .isFalse fun ⟨_, h'⟩ => by
      cases h.symm.trans h'
      exact hb rfl
  | .error _ _ => .isFalse fun ⟨_, h'⟩ => by cases h.symm.trans h'

/-! ## Steps that cannot succeed -/

def Fails (x : EStateM ε σ α) : Prop := ∀ s a s', x s ≠ .ok a s'

theorem Fails.throw (e : ε) : Fails (throw e : EStateM ε σ α) := fun _ _ _ => throw_ok

/-- A handler that never succeeds does not make a step succeed that fails. -/
theorem ok_of_tryCatch_ok (hh : ∀ e, Fails (h e)) (ok : (tryCatch x h) s = .ok a s') :
    x s = .ok a s' := by
  rcases tryCatch_ok.1 ok with hx | ⟨e, s₁, _, he⟩
  · exact hx
  · exact absurd he (hh e s₁ a s')

/-! ## Steps that follow each other -/

/-- Whenever `x` succeeds, its two states are in the relation `T`, and `y` succeeds in the same
way. -/
def Follows (T : σ → σ → Prop) (x y : EStateM ε σ α) : Prop :=
  ∀ s a s', x s = .ok a s' → T s s' ∧ y s = .ok a s'

/-- Whenever a step succeeds, its two states are in the relation `T`. -/
abbrev Respects (T : σ → σ → Prop) (x : EStateM ε σ α) : Prop := Follows T x x

namespace Follows

variable {T : σ → σ → Prop} {x y : EStateM ε σ α}

theorem state (h : Follows T x y) {s s' : σ} {a : α} (hx : x s = .ok a s') : T s s' :=
  (h s a s' hx).1

theorem same (h : Follows T x y) {s s' : σ} {a : α} (hx : x s = .ok a s') : y s = .ok a s' :=
  (h s a s' hx).2

theorem of_fails (hx : Fails x) : Follows T x y := fun s a s' h => absurd h (hx s a s')

theorem throw (e : ε) : Follows T (throw e) y := of_fails (Fails.throw e)

theorem of_state (h : ∀ s a s', x s = .ok a s' → T s s') : Follows T x x :=
  fun s a s' hx => ⟨h s a s' hx, hx⟩

theorem mono {T' : σ → σ → Prop} (hT : ∀ s s', T s s' → T' s s') (h : Follows T x y) :
    Follows T' x y :=
  fun s _ s' hx => ⟨hT s s' (h.state hx), h.same hx⟩

/-- A step that another one follows respects the relation. -/
theorem self (h : Follows T x y) : Follows T x x := of_state fun _ _ _ hx => h.state hx

/-- Handlers that never succeed change nothing for steps that succeed. -/
theorem rethrow {h h' : ε → EStateM ε σ α} (hxy : Follows T x y) (hh : ∀ e, Fails (h e)) :
    Follows T (tryCatch x h) (tryCatch y h') := by
  intro s a s' ok
  obtain ⟨ht, hy⟩ := hxy s a s' (ok_of_tryCatch_ok hh ok)
  exact ⟨ht, tryCatch_ok.2 (Or.inl hy)⟩

theorem bind [IsTrans σ T] {f g : α → EStateM ε σ β} (hxy : Follows T x y)
    (hfg : ∀ a, Follows T (f a) (g a)) : Follows T (x >>= f) (y >>= g) := by
  intro s b s' h
  obtain ⟨a, s₁, hx, hf⟩ := bind_ok.1 h
  obtain ⟨ht₁, hy⟩ := hxy s a s₁ hx
  obtain ⟨ht₂, hg⟩ := hfg a s₁ b s' hf
  exact ⟨trans_of T ht₁ ht₂, bind_ok.2 ⟨a, s₁, hy, hg⟩⟩

variable [IsPreorder σ T]

theorem pure (r : α) : Follows T (Pure.pure r : EStateM ε σ α) (Pure.pure r) := by
  refine of_state fun s _ s' h => ?_
  obtain ⟨-, rfl⟩ := pure_ok.1 h
  exact refl_of T s

theorem get : Follows T (MonadState.get : EStateM ε σ σ) MonadState.get := by
  refine of_state fun s _ s' h => ?_
  obtain ⟨-, rfl⟩ := get_ok.1 h
  exact refl_of T s

end Follows

def Any (_ _ : σ) : Prop := True

instance : IsPreorder σ Any where
  refl _ := trivial
  trans _ _ _ _ _ := trivial

theorem Follows.any (x : EStateM ε σ α) : Follows Any x x := of_state fun _ _ _ _ => trivial

/-! ## Steps that keep up with others -/

/-- From states that match, whenever `x` succeeds, `y` gives the same result and the states match
again; or else `y` gives up with a failure in `P`. -/
def Sim (E : σ → σ → Prop) (P : ε → Prop) (x y : EStateM ε σ α) : Prop :=
  ∀ s t, E s t → ∀ a s', x s = .ok a s' →
    (∃ t', y t = .ok a t' ∧ E s' t') ∨ ∃ e t', y t = .error e t' ∧ P e

/-- From states that match, two steps come to the same, be it a result or a failure, and the states
match again. -/
structure Tracks (E : σ → σ → Prop) (x y : EStateM ε σ α) : Prop where
  ok : ∀ s t, E s t → ∀ a s', x s = .ok a s' → ∃ t', y t = .ok a t' ∧ E s' t'
  error : ∀ s t, E s t → ∀ e s', x s = .error e s' → ∃ t', y t = .error e t' ∧ E s' t'

namespace Sim

variable {E : σ → σ → Prop} {P : ε → Prop} {x y : EStateM ε σ α}

theorem of_fails (hx : Fails x) : Sim E P x y := fun s _ _ a s' h => absurd h (hx s a s')

theorem of_tracks (h : Tracks E x y) : Sim E P x y :=
  fun s t hst a s' hx => Or.inl (h.ok s t hst a s' hx)

theorem pure (r : α) : Sim E P (Pure.pure r : EStateM ε σ α) (Pure.pure r) := by
  intro s t hst b s' h
  obtain ⟨rfl, rfl⟩ := pure_ok.1 h
  exact Or.inl ⟨t, pure_ok.2 ⟨rfl, rfl⟩, hst⟩

theorem bind {f g : α → EStateM ε σ β} (hxy : Sim E P x y) (hfg : ∀ a, Sim E P (f a) (g a)) :
    Sim E P (x >>= f) (y >>= g) := by
  intro s t hst b s' h
  obtain ⟨a, s₁, hx, hf⟩ := bind_ok.1 h
  rcases hxy s t hst a s₁ hx with ⟨t₁, hy, hst₁⟩ | ⟨e, t₁, hy, he⟩
  · rcases hfg a s₁ t₁ hst₁ b s' hf with ⟨t', hg, hst'⟩ | ⟨e, t', hg, he⟩
    · exact Or.inl ⟨t', bind_ok.2 ⟨a, t₁, hy, hg⟩, hst'⟩
    · exact Or.inr ⟨e, t', bind_error.2 (Or.inr ⟨a, t₁, hy, hg⟩), he⟩
  · exact Or.inr ⟨e, t₁, bind_error.2 (Or.inl hy), he⟩

/-- Steps that look at the state go on alike if they do so for states that match. -/
theorem get_bind {f g : σ → EStateM ε σ β} (h : ∀ s t, E s t → Sim E P (f s) (g t)) :
    Sim E P (get >>= f) (get >>= g) := by
  intro s t hst b s' ok
  obtain ⟨_, _, hget, hf⟩ := bind_ok.1 ok
  obtain ⟨rfl, rfl⟩ := get_ok.1 hget
  rcases h s t hst s t hst b s' hf with ⟨t', hg, hst'⟩ | ⟨e, t', hg, he⟩
  · exact Or.inl ⟨t', bind_ok.2 ⟨t, t, get_ok.2 ⟨rfl, rfl⟩, hg⟩, hst'⟩
  · exact Or.inr ⟨e, t', bind_error.2 (Or.inr ⟨t, t, get_ok.2 ⟨rfl, rfl⟩, hg⟩), he⟩

/-- Handlers that never succeed change nothing, as long as they hand on what it is to give up. -/
theorem rethrow {h h' : ε → EStateM ε σ α} (hxy : Sim E P x y) (hh : ∀ e, Fails (h e))
    (hh' : ∀ e, P e → ∀ t, ∃ e' t', h' e t = .error e' t' ∧ P e') :
    Sim E P (tryCatch x h) (tryCatch y h') := by
  intro s t hst a s' ok
  rcases hxy s t hst a s' (ok_of_tryCatch_ok hh ok) with ⟨t', hy, hst'⟩ | ⟨e, t₁, hy, he⟩
  · exact Or.inl ⟨t', tryCatch_ok.2 (Or.inl hy), hst'⟩
  · obtain ⟨e', t', hthrown, he'⟩ := hh' e he t₁
    exact Or.inr ⟨e', t', tryCatch_error.2 ⟨e, t₁, hy, hthrown⟩, he'⟩

/-- A step that keeps up without giving up keeps up. -/
theorem of_never (h : Sim E (fun _ => False) x y) : Sim E P x y := by
  intro s t hst a s' hx
  rcases h s t hst a s' hx with kept | ⟨_, _, _, impossible⟩
  · exact Or.inl kept
  · exact absurd impossible id

theorem same (h : Sim Eq (fun _ => False) x y) {s s' : σ} {a : α} (hx : x s = .ok a s') :
    y s = .ok a s' := by
  rcases h s s rfl a s' hx with ⟨t', hy, rfl⟩ | ⟨_, _, _, impossible⟩
  · exact hy
  · exact absurd impossible id

end Sim

/-! ## Steps that keep something -/

def Kept (I : σ → Prop) (s t : σ) : Prop := s = t ∧ I s

/-- From a state with the property `I`, whenever `x` succeeds, its result is in `Q`, and the state
has the property again. -/
def Yields (I : σ → Prop) (Q : α → Prop) (x : EStateM ε σ α) : Prop :=
  ∀ s a s', I s → x s = .ok a s' → I s' ∧ Q a

namespace Yields

variable {I : σ → Prop} {Q : α → Prop} {R : β → Prop} {x : EStateM ε σ α}

theorem of_fails (hx : Fails x) : Yields I Q x := fun s a s' _ h => absurd h (hx s a s')

theorem pure {r : α} (hr : Q r) : Yields I Q (Pure.pure r : EStateM ε σ α) := by
  intro s a s' hs h
  obtain ⟨rfl, rfl⟩ := pure_ok.1 h
  exact ⟨hs, hr⟩

theorem bind {f : α → EStateM ε σ β} (hx : Yields I Q x) (hf : ∀ a, Q a → Yields I R (f a)) :
    Yields I R (x >>= f) := by
  intro s b s' hs h
  obtain ⟨a, s₁, hxa, hfb⟩ := bind_ok.1 h
  obtain ⟨hs₁, ha⟩ := hx s a s₁ hs hxa
  exact hf a ha s₁ b s' hs₁ hfb

/-- A step that keeps up with itself keeps the property. -/
theorem of_sim (h : Sim (Kept I) (fun _ => False) x x) : Yields I (fun _ => True) x := by
  intro s a s' hs hx
  rcases h s s ⟨rfl, hs⟩ a s' hx with ⟨_, _, _, hs'⟩ | ⟨_, _, _, never⟩
  · exact ⟨hs', trivial⟩
  · exact never.elim

theorem tryCatch {h : ε → EStateM ε σ α} (hx : Yields I Q x)
    (hsim : ∀ s e s', I s → x s = .error e s' → I s') (hh : ∀ e, Yields I Q (h e)) :
    Yields I Q (MonadExcept.tryCatch x h) := by
  intro s a s' hs ok
  rcases tryCatch_ok.1 ok with hxa | ⟨e, s₁, failed, met⟩
  · exact hx s a s' hs hxa
  · exact hh e s₁ a s' (hsim s e s₁ hs failed) met

end Yields

theorem Tracks.refl (x : EStateM ε σ α) : Tracks Eq x x where
  ok := by
    rintro s t rfl a s' h
    exact ⟨s', h, rfl⟩
  error := by
    rintro s t rfl e s' h
    exact ⟨s', h, rfl⟩

theorem Tracks.andReturn {E : σ → σ → Prop} (h : Tracks E x y) (f : α → β) :
    Tracks E (x >>= fun a => pure (f a)) (y >>= fun a => pure (f a)) := by
  constructor
  · intro s t hst b s' ok
    obtain ⟨a, s₁, hx, hf⟩ := bind_ok.1 ok
    obtain ⟨rfl, rfl⟩ := pure_ok.1 hf
    obtain ⟨t', hy, hst'⟩ := h.ok s t hst a _ hx
    exact ⟨t', bind_ok.2 ⟨a, t', hy, pure_ok.2 ⟨rfl, rfl⟩⟩, hst'⟩
  · intro s t hst e s' failed
    rcases bind_error.1 failed with hx | ⟨_, _, _, hf⟩
    · obtain ⟨t', hy, hst'⟩ := h.error s t hst e s' hx
      exact ⟨t', bind_error.2 (Or.inl hy), hst'⟩
    · cases hf

end Step

/-! ## Steps on the store -/

namespace Eval

open Step (Follows Fails Sim)

variable {α : Type}

variable {w w' : World} {a : α} {task : Task α}

theorem ofAct_ok {act : Act α} :
    ofAct act w = .ok a w' ↔ ∃ s, act w.store = .ok a s ∧ { w with store := s } = w' := by
  rw [ofAct]
  cases act w.store with
  | ok b s =>
    constructor
    · intro h
      cases h
      exact ⟨s, rfl, rfl⟩
    · rintro ⟨_, ⟨rfl, rfl⟩, rfl⟩
      rfl
  | error f s => simp

theorem ofTask_ok : ofTask task w = .ok a w' ↔ task w = .ok a w' := by
  rw [ofTask]
  cases task w with
  | ok | error => simp

theorem ofTask_error {e : Fault} :
    ofTask task w = .error e w' ↔ ∃ f, task w = .error f w' ∧ ⟨f, 0⟩ = e := by
  rw [ofTask]
  cases task w with
  | ok b w₁ => simp
  | error f w₁ =>
    constructor
    · intro h
      cases h
      exact ⟨f, rfl, rfl⟩
    · rintro ⟨_, ⟨rfl, rfl⟩, rfl⟩
      rfl

theorem tracks_ofTask {E : World → World → Prop} {x y : Task α} (h : Step.Tracks E x y) :
    Step.Tracks E (ofTask x) (ofTask y) := by
  constructor
  · intro w v hwv a w' ok
    obtain ⟨v', hy, hwv'⟩ := h.ok w v hwv a w' (ofTask_ok.1 ok)
    exact ⟨v', ofTask_ok.2 hy, hwv'⟩
  · intro w v hwv e w' failed
    obtain ⟨f, hx, rfl⟩ := ofTask_error.1 failed
    obtain ⟨v', hy, hwv'⟩ := h.error w v hwv f w' hx
    exact ⟨v', ofTask_error.2 ⟨f, hy, rfl⟩, hwv'⟩

theorem fails_fail (f : Failure) : Fails (fail f : Eval α) := Fails.throw _

/-- What a relation between worlds, and a way to give up, have to be for renderings that are
compared: worlds that match have one store, they stay so when something is done to it that `S`
allows, and a fault that gets a line does not change its nature. -/
structure Matching (S : Store → Store → Prop) (E : World → World → Prop) (P : Fault → Prop) :
    Prop where
  store : ∀ {w v : World}, E w v → w.store = v.store
  put : ∀ {w v : World} {s : Store}, E w v → S w.store s →
    E { w with store := s } { v with store := s }
  placed : ∀ (frame : Frame) (mark : Int) {fault : Fault}, P fault → P (frame.placed mark fault)

namespace Matching

variable {S : Store → Store → Prop} {E : World → World → Prop} {P : Fault → Prop}
  (hE : Matching S E P)

include hE

theorem never : Matching S E fun _ => False := ⟨hE.store, hE.put, fun _ _ _ h => h⟩

theorem act {x y : Act α} (h : Follows S x y) : Sim E P (ofAct x) (ofAct y) := by
  intro w v hwv a w' ok
  obtain ⟨s, hx, rfl⟩ := ofAct_ok.1 ok
  obtain ⟨hs, hy⟩ := h w.store a s hx
  rw [hE.store hwv] at hy
  exact Or.inl ⟨_, ofAct_ok.2 ⟨s, hy, rfl⟩, hE.put hwv hs⟩

theorem reading (f : Store → α) :
    Sim E P (get >>= fun w => pure (f w.store)) (get >>= fun w => pure (f w.store)) := by
  refine Sim.get_bind fun w v hwv => ?_
  rw [hE.store hwv]
  exact Sim.pure _

theorem located {x y : Eval α} (frame frame' : Frame) (mark : Int) (h : Sim E P x y) :
    Sim E P (frame.located mark x) (frame'.located mark y) :=
  h.rethrow (fun _ => Fails.throw _) fun _ he v =>
    ⟨_, v, rfl, hE.placed frame' mark he⟩

end Matching
end Eval

namespace Task

variable {α : Type}

theorem ofAct_ok {act : Act α} {w w' : World} {a : α} :
    ofAct act w = .ok a w' ↔ ∃ s, act w.store = .ok a s ∧ { w with store := s } = w' := by
  rw [ofAct]
  cases act w.store with
  | ok b s =>
    constructor
    · intro h
      cases h
      exact ⟨s, rfl, rfl⟩
    · rintro ⟨_, ⟨rfl, rfl⟩, rfl⟩
      rfl
  | error f s => simp

theorem finish_ok {report : Fault → Failure} {step : Eval α} {w w' : World} {a : α} :
    Render.finish report step w = .ok a w' ↔ step w = .ok a w' := by
  rw [Render.finish]
  cases step w with
  | ok | error => simp

end Task

namespace Frame

open Step (Fails)

variable {α : Type}

theorem fails_raise (frame : Frame) (line : Int) (reason : Raised) (cause : Option Failure) :
    Fails (frame.raise line reason cause : Eval α) := Eval.fails_fail _

theorem fails_raiseFrom (frame : Frame) (line : Int) (reason : Raised) (f : Failure) :
    Fails (frame.raiseFrom line reason f : Eval α) := by
  rw [raiseFrom]
  split
  · exact Eval.fails_fail _
  · split
    · exact Eval.fails_fail _
    · exact fails_raise frame line reason _

variable {x y : Eval α} {E : World → World → Prop}

theorem located_ok {frame : Frame} {mark : Int} {w w' : World} {a : α} :
    frame.located mark x w = .ok a w' ↔ x w = .ok a w' := by
  constructor
  · exact Step.ok_of_tryCatch_ok fun _ => Fails.throw _
  · exact fun h => Step.tryCatch_ok.2 (Or.inl h)

theorem sim_located (frame : Frame) (mark : Int) (h : Step.Sim E (fun _ => False) x y) :
    Step.Sim E (fun _ => False) x (frame.located mark y) := by
  intro w v hwv a w' ok
  rcases h w v hwv a w' ok with ⟨v', hy, hwv'⟩ | ⟨_, _, _, never⟩
  · exact Or.inl ⟨v', located_ok.2 hy, hwv'⟩
  · exact never.elim

end Frame
end Stencil
