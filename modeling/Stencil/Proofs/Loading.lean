import Stencil.Proofs.Step

/-!
# Loading templates

A template that has been made is taken from the cache of the world; any other is made, and put there.
What loading does is said once here: what it gives (`Environment.load_ok`), how it fails
(`Environment.load_error`), and that all it changes is the cache and the counts.
-/

namespace Stencil
namespace Environment

variable {env : Environment} {name source : String} {w w' : World} {t : Template}

/-- A template that was made before is a hit; any other is a miss, and kept when it is made. -/
theorem load_eq : env.load name source w =
    match w.cache.lookup (unitName name source) with
    | some t => .ok t { w with hits := w.hits + 1 }
    | none => match env.build source name with
      | .ok t => .ok t { w with misses := w.misses + 1, cache := (t.unit, t) :: w.cache }
      | .error f => .error f { w with misses := w.misses + 1 } := by
  unfold load
  cases found : w.cache.lookup (unitName name source) with
  | some t =>
    refine Step.bind_ok.2 ⟨w, w, rfl, ?_⟩
    rw [found]
    rfl
  | none =>
    cases env.build source name with
    | ok t =>
      refine Step.bind_ok.2 ⟨w, w, rfl, ?_⟩
      rw [found]
      refine Step.bind_ok.2 ⟨(), _, rfl, ?_⟩
      rfl
    | error f =>
      refine Step.bind_error.2 (Or.inr ⟨w, w, rfl, ?_⟩)
      rw [found]
      refine Step.bind_error.2 (Or.inr ⟨(), _, rfl, ?_⟩)
      rfl

theorem load_ok : env.load name source w = .ok t w' ↔
    (w.cache.lookup (unitName name source) = some t ∧ { w with hits := w.hits + 1 } = w') ∨
      (w.cache.lookup (unitName name source) = none ∧ env.build source name = .ok t ∧
        { w with misses := w.misses + 1, cache := (t.unit, t) :: w.cache } = w') := by
  rw [load_eq]
  cases w.cache.lookup (unitName name source) with
  | some t' => simp
  | none =>
    cases env.build source name with
    | ok t' =>
      constructor
      · intro h
        cases h
        exact Or.inr ⟨rfl, rfl, rfl⟩
      · rintro (⟨h, _⟩ | ⟨_, h, rfl⟩)
        · cases h
        · cases h
          rfl
    | error f => simp

theorem load_error {f : Failure} : env.load name source w = .error f w' ↔
    w.cache.lookup (unitName name source) = none ∧ env.build source name = .error f ∧
      { w with misses := w.misses + 1 } = w' := by
  rw [load_eq]
  cases w.cache.lookup (unitName name source) with
  | some t' => simp
  | none =>
    cases env.build source name with
    | ok | error => simp

theorem loadTemplate_ok : env.loadTemplate name w = .ok t w' ↔
    ∃ source, env.source name = .ok source ∧ env.load name source w = .ok t w' := by
  unfold loadTemplate
  cases env.source name with
  | ok source => simp
  | error f =>
    constructor
    · intro h
      cases h
    · rintro ⟨_, h, _⟩
      cases h

theorem loadTemplate_error {f : Failure} : env.loadTemplate name w = .error f w' ↔
    (env.source name = .error f ∧ w = w') ∨
      ∃ source, env.source name = .ok source ∧ env.load name source w = .error f w' := by
  unfold loadTemplate
  cases env.source name with
  | ok source => simp
  | error f' =>
    constructor
    · intro h
      cases h
      exact Or.inl ⟨rfl, rfl⟩
    · rintro (⟨h, rfl⟩ | ⟨_, h, _⟩)
      · cases h
        rfl
      · cases h

/-- A template is assembled from the tree of its source, as that was read and escaped. -/
theorem assembled_of_build (built : env.build source name = .ok t) :
    ∃ module, env.tree source name = .ok module ∧
      Program.assemble module (unitName name source) = some t := by
  unfold build at built
  simp only [bind, Except.bind] at built
  split at built
  · cases built
  · next module parsed =>
    split at built
    · cases built
    · split at built
      · cases built
      · split at built
        · next assembled =>
          cases built
          exact ⟨module, parsed, assembled⟩
        · cases built

theorem unit_of_build (built : env.build source name = .ok t) : t.unit = unitName name source := by
  obtain ⟨module, -, assembled⟩ := assembled_of_build built
  simp only [Program.assemble, bind, Option.bind_eq_some_iff, pure] at assembled
  obtain ⟨_, _, _, _, _, _, made⟩ := assembled
  cases made
  rfl

end Environment
end Stencil
