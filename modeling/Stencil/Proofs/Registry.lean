import Stencil.Environment

/-!
# What extensions leave in the language

A registry is put together from extensions, name by name. What is needed of it later is that every
callable in it comes from one of the extensions (`Registry.forall_offers`), and that the language
itself comes without conflicts (`Environment.make_core`).
-/

namespace Stencil

open List Stencil.Shelf

theorem mem_of_lookup {α : Type} {name : String} {a : α} :
    ∀ {entries : List (String × α)}, entries.lookup name = some a → (name, a) ∈ entries
  | entry :: rest, h => by
    rw [lookup_cons] at h
    split at h
    · next same =>
      cases h
      rw [eq_of_beq same]
      exact mem_cons_self
    · exact mem_cons_of_mem _ (mem_of_lookup h)

/-! ## Shelves -/

namespace Shelf

variable {α : Type} {P : α → Prop}

/-- Whether all entries of a shelf have a property. -/
def All (P : α → Prop) (s : Shelf α) : Prop := ∀ entry ∈ s, P entry.2.2

variable {s : Shelf α} {name : String} {a : α} {items : List (String × α)}

theorem All.get? (h : s.All P) (ha : s.get? name = some a) : P a := by
  obtain ⟨entry, found, rfl⟩ := Option.map_eq_some_iff.1 ha
  exact h (name, entry) (mem_of_lookup found)

theorem All.claim (h : s.All P) (sort owner name : String) (ha : P a) :
    (Shelf.claim sort owner s name a).1.All P := by
  unfold Shelf.claim
  split
  · exact h
  · intro entry hentry
    rcases mem_append.1 hentry with old | new
    · exact h entry old
    · rw [mem_singleton.1 new]
      exact ha

theorem All.claimAll (sort owner : String) (hitems : ∀ item ∈ items, P item.2) :
    ∀ {s : Shelf α}, s.All P → (claimAll sort owner s items).1.All P := by
  induction items with
  | nil => exact fun h => h
  | cons item rest ih =>
    obtain ⟨name, a⟩ := item
    obtain ⟨ha, hrest⟩ := forall_mem_cons.1 hitems
    exact fun h => ih hrest (h.claim sort owner name ha)

theorem All.claimSorted (h : s.All P) (sort owner : String) (hitems : ∀ item ∈ items, P item.2) :
    (claimSorted sort owner s items).1.All P :=
  h.claimAll sort owner fun item hitem => hitems item (mem_mergeSort.1 hitem)

theorem lookup_claim {found : String × α} (h : s.lookup name = some found)
    (sort owner other : String) (a : α) :
    (claim sort owner s other a).1.lookup name = some found := by
  unfold claim
  split
  · exact h
  · rw [lookup_append, h]
    rfl

theorem lookup_claimAll (sort owner : String) (items : List (String × α)) :
    ∀ {s : Shelf α} {name : String} {found : String × α}, s.lookup name = some found →
      (claimAll sort owner s items).1.lookup name = some found := by
  induction items with
  | nil => exact fun h => h
  | cons item rest ih => exact fun h => ih (lookup_claim h sort owner item.1 item.2)

theorem lookup_claimAll_of_mem (sort owner : String) (items : List (String × α)) :
    ∀ {s : Shelf α}, (items.map (·.1)).Nodup → ∀ {item : String × α}, item ∈ items →
      s.lookup item.1 = none →
      (claimAll sort owner s items).1.lookup item.1 = some (owner, item.2) := by
  induction items with
  | nil => exact fun _ _ h => absurd h not_mem_nil
  | cons first rest ih =>
    intro s different item hitem free
    obtain ⟨fresh, different⟩ := nodup_cons.1 different
    rcases mem_cons.1 hitem with rfl | hrest
    · refine lookup_claimAll sort owner rest ?_
      rw [free, lookup_append, free, lookup_cons, beq_self_eq_true]
      rfl
    · refine ih different hrest ?_
      have other : (item.1 == first.1) = false :=
        beq_false_of_ne fun same => fresh (mem_map.2 ⟨item, hrest, same⟩)
      split
      · exact free
      · rw [lookup_append, free, lookup_cons, other]
        rfl

theorem claimAll_new (sort owner : String) (items : List (String × α)) :
    ∀ {s : Shelf α}, (items.map (·.1)).Nodup → (∀ item ∈ items, s.lookup item.1 = none) →
      (claimAll sort owner s items).1.entries = s.entries ++ items ∧
        (claimAll sort owner s items).2 = [] := by
  induction items with
  | nil => exact fun _ _ => ⟨(append_nil _).symm, rfl⟩
  | cons item rest ih =>
    intro s different new
    obtain ⟨name, a⟩ := item
    obtain ⟨fresh, different⟩ := nodup_cons.1 different
    obtain ⟨free, new⟩ := forall_mem_cons.1 new
    have claimed : claim sort owner s name a = (s ++ [(name, owner, a)], []) := by
      unfold claim
      rw [free]
    unfold claimAll
    rw [claimed]
    refine (ih different fun item hitem => ?_).imp (fun put => put.trans (by simp [entries])) id
    have other : (item.1 == name) = false :=
      beq_false_of_ne fun same => fresh (mem_map.2 ⟨item, hitem, same⟩)
    simp [lookup_append, new item hitem, lookup_cons, other]

theorem conflicts_claimSorted (sort owner : String) (items : List (String × α))
    (different : (items.map (·.1)).Nodup) : (claimSorted sort owner [] items).2 = [] := by
  refine (claimAll_new sort owner _ ?_ fun _ _ => rfl).2
  exact ((mergeSort_perm items _).map _).nodup_iff.2 different

end Shelf

/-! ## Registries -/

structure Extension.All (P : Callable → Prop) (e : Extension) : Prop where
  filters : ∀ f ∈ e.filters, P f.2
  functions : ∀ f ∈ e.functions, P f.2
  tests : ∀ f ∈ e.tests, P f.2

theorem Extension.All.mono {P Q : Callable → Prop} {e : Extension} (h : e.All P)
    (hPQ : ∀ c, P c → Q c) : e.All Q where
  filters f hf := hPQ f.2 (h.filters f hf)
  functions f hf := hPQ f.2 (h.functions f hf)
  tests f hf := hPQ f.2 (h.tests f hf)

namespace Registry

/-- Whether something is a filter, a function or a test of the registry. -/
def Offers (r : Registry) (c : Callable) : Prop :=
  ∃ name, r.filters.get? name = some c ∨ r.functions.get? name = some c ∨
    r.tests.get? name = some c

structure All (P : Callable → Prop) (r : Registry) : Prop where
  filters : r.filters.All P
  functions : r.functions.All P
  tests : r.tests.All P

variable {P : Callable → Prop}

theorem All.offers {r : Registry} (h : r.All P) {c : Callable} (hc : r.Offers c) : P c := by
  obtain ⟨name, found | found | found⟩ := hc
  · exact h.filters.get? found
  · exact h.functions.get? found
  · exact h.tests.get? found

theorem All.add {r : Registry} (h : r.All P) {e : Extension} (he : e.All P) :
    (r.add e).1.All P where
  filters := h.filters.claimSorted _ _ he.filters
  functions := h.functions.claimSorted _ _ he.functions
  tests := h.tests.claimSorted _ _ he.tests

/-- What holds of all that the extensions bring holds of all that is offered. -/
theorem forall_offers {es : List Extension} (hes : ∀ e ∈ es, e.All P) (c : Callable)
    (hc : (ofExtensions es).1.Offers c) : P c := by
  have folded : ∀ (es : List Extension) (start : Registry × List String), start.1.All P →
      (∀ e ∈ es, e.All P) →
      (es.foldl (fun r e => ((r.1.add e).1, r.2 ++ (r.1.add e).2)) start).1.All P := by
    intro es
    induction es with
    | nil => exact fun _ hstart _ => hstart
    | cons e es ih =>
      intro start hstart hes
      obtain ⟨he, hrest⟩ := forall_mem_cons.1 hes
      exact ih _ (hstart.add he) hrest
  refine All.offers (folded es ({}, []) ⟨?_, ?_, ?_⟩ hes) hc
  all_goals exact forall_mem_nil _

/-- A filter of the language itself keeps its meaning, whatever extensions come after it. -/
theorem filter_of_core {name : String} {c : Callable} (hc : (name, c) ∈ Language.filters)
    (es : List Extension) : (ofExtensions (.core :: es)).1.filters.get? name = some c := by
  have kept : ∀ (es : List Extension) (start : Registry × List String),
      start.1.filters.lookup name = some ("core", c) →
      (es.foldl (fun r e => ((r.1.add e).1, r.2 ++ (r.1.add e).2)) start).1.filters.lookup
        name = some ("core", c) := by
    intro es
    induction es with
    | nil => exact fun _ h => h
    | cons e es ih => exact fun start h => ih _ (lookup_claimAll _ _ _ h)
  have first : (claimSorted "filter" "core" [] Language.filters).1.lookup name =
      some ("core", c) := by
    refine lookup_claimAll_of_mem "filter" "core" _ ?_ (mem_mergeSort.2 hc) rfl
    exact ((mergeSort_perm Language.filters _).map _).nodup_iff.2 (by decide)
  rw [ofExtensions, foldl_cons, get?, kept es _ first]
  rfl

theorem conflicts_core : (ofExtensions [.core]).2 = [] := by
  have tags := (claimAll_new "tag" "core" (Parse.coreTags.map fun t => (t.name, t))
    (s := []) (by decide) fun _ _ => rfl).2
  have unary := conflicts_claimSorted "unary operator" "core" Language.unaryOperators
    (by decide)
  have binary := conflicts_claimSorted "binary operator" "core" Language.binaryOperators
    (by decide)
  have filters := conflicts_claimSorted "filter" "core" Language.filters (by decide)
  have functions := conflicts_claimSorted "function" "core" Language.functions (by decide)
  have tests := conflicts_claimSorted "test" "core" Language.tests (by decide)
  simp only [ofExtensions, foldl_cons, foldl_nil, add, Extension.core, tags, unary, binary,
    filters, functions, tests, append_nil]

end Registry

namespace Environment

def ofCore (options : Options) (source : String → Except Failure String) (host : Host) :
    Environment :=
  ⟨options, source, host, (Registry.ofExtensions [.core]).1, Container.method?⟩

/-- Without extensions, an environment is made whenever the options are valid. -/
theorem make_core (options : Options) (h : options.complaints = [])
    (source : String → Except Failure String) (host : Host) :
    make options [] source host = .ok (ofCore options source host) := by
  unfold make
  rw [h]
  dsimp only [Check.summary?]
  rw [Registry.conflicts_core]
  rfl

end Environment
end Stencil
