import Stencil.Proofs.Callables
import Stencil.Proofs.Comparison
import Stencil.Proofs.Storage

/-!
# What operations do

The operations of the language, and its filters, functions and tests, leave every container as it is;
at most they make new ones. And strict options only turn values into errors: what succeeds under
them comes to the same without them. Both are said by one accord (`Accord.following`).
-/

namespace Stencil

open Step (Follows Respects)
open Store (Extends)

section Same

mutual

theorem Plain.fits_same (d : Plain) : d.Fits .same := by
  cases d with
  | list element items => exact fitsAll_same items
  | map keys values => exact ⟨fitsAll_same keys, fitsAll_same values⟩
  | value v => exact .refl v
  | _ => trivial

theorem Plain.fitsAll_same (ds : List Plain) : FitsAll .same ds := by
  cases ds with
  | nil => trivial
  | cons d ds => exact ⟨fits_same d, fitsAll_same ds⟩

end

theorem Host.fits_same (host : Host) : host.Fits .same :=
  ⟨fun _ _ _ d _ => d.fits_same, fun _ _ _ _ _ _ results _ _ => Plain.fitsAll_same results⟩

theorem Table.Alike.eq {t u : Table} (h : Table.Alike .same t u) : t = u :=
  (Table.mk.injEq ..).mpr ⟨h.entries.eq, h.isBlank⟩

theorem Attribute.FoundAlike.refl (found : Found) : FoundAlike .same found found := by
  cases found with
  | value v => exact .value (.refl v)
  | failed cause member => exact .failed cause member
  | missing reason => exact .missing reason

end Same

section Following

variable {T : Store → Store → Prop} [IsPreorder Store T] {α : Type} {R : α → α → Prop} {x y : Act α}

/-- What succeeds leads from a store to one in the relation `T`, which may have more containers at
least, and goes with a step that comes to the same. -/
def Accord.following (T : Store → Store → Prop) [IsPreorder Store T]
    (hT : ∀ s s', Extends s s' → T s s') : Accord .same :=
  have self {α : Type} {R : α → α → Prop} {x : Act α} (h : Respects Extends x) (refl : ∀ a, R a a) :
      ∀ s a s', x s = .ok a s' → T s s' ∧ ∃ b, x s = .ok b s' ∧ R a b :=
    fun _ a _ ok => ⟨hT _ _ (h.state ok), a, ok, refl a⟩
  { rel R x y := ∀ s a s', x s = .ok a s' → T s s' ∧ ∃ b, y s = .ok b s' ∧ R a b
    pure {_ _ _ b} related s _ _ ok := by
      obtain ⟨rfl, rfl⟩ := Step.pure_ok.1 ok
      exact ⟨refl_of T s, b, rfl, related⟩
    bind hxy hfg s b s' ok := by
      obtain ⟨a, s₁, hx, hf⟩ := Step.bind_ok.1 ok
      obtain ⟨first, a', hy, related⟩ := hxy s a s₁ hx
      obtain ⟨second, b', hg, related'⟩ := hfg a a' related s₁ b s' hf
      exact ⟨trans_of T first second, b', Step.bind_ok.2 ⟨a', s₁, hy, hg⟩, related'⟩
    rethrow _ hxy s a s' ok := by
      obtain ⟨led, b, hy, related⟩ :=
        hxy s a s' (Step.ok_of_tryCatch_ok (fun _ => Step.Fails.throw _) ok)
      exact ⟨led, b, Step.tryCatch_ok.2 (.inl hy), related⟩
    look h s a s' ok := h s s (.refl s) s a s' ok
    list items := Value.eq_of_allAlike items ▸ self (Act.newList_extends _) .refl
    dict tables := tables.eq ▸ self (Act.addDict_extends _) .refl
    handle _ o := self (Act.newHandle_extends.bind fun _ => .pure _) .refl
    handleOfCopy _ o := self (Act.handleOfCopy_extends o) .refl
    lax := True
    fails _ _ _ _ _ _ _ _ ok := absurd ok Step.throw_ok
    throw _ _ _ _ ok := absurd ok Step.throw_ok }

variable {hT : ∀ s s', Extends s s' → T s s'}

theorem Act.Accords.follows (h : Act.Accords (.following T hT) R x y) (eq : ∀ a b, R a b → a = b) :
    Follows T x y := by
  intro s a s' ok
  obtain ⟨led, b, ok', related⟩ := h s a s' ok
  exact ⟨led, eq a b related ▸ ok'⟩

/-- **What operations come to in an environment, they come to in a milder one**, if methods of
containers do. -/
theorem Operation.follows {env env' : Environment} (h : Operation .same env env' R x y)
    (hT : ∀ s s', Extends s s' → T s s')
    (milder : ∀ template, (env'.scope template).Milder (.following T hT) (env.scope template))
    (methods : ∀ v key args access otherwise,
      Follows T (Attribute.ofContainer env.methods v key args access otherwise)
        (Attribute.ofContainer env'.methods v key args access otherwise)) : Follows T x y := by
  refine (h.accords milder env.host.fits_same ?_).follows h.eq
  intro v w alike key vs ws alikes access otherwise s found s' ok
  cases alike.eq
  cases Value.eq_of_allAlike alikes
  obtain ⟨led, same⟩ := methods v key vs access otherwise s found s' ok
  exact ⟨led, found, same, .refl found⟩

theorem Environment.FollowedBy.refl (env : Environment) : env.FollowedBy Step.Any env where
  registry := rfl
  operation h := h.follows (fun _ _ _ => trivial) (fun _ => .refl _) fun _ _ _ _ _ => Follows.any _
  callable _ _ _ _ _ := Follows.any _

theorem Callable.Accords.follows {c : Callable} (h : c.Accords (.following T hT))
    {mild strict : Scope} (milder : mild.Milder (.following T hT) strict) (args : List Value)
    (named : List (String × Value)) : Follows T (c strict args named) (c mild args named) := by
  refine (h mild strict milder (Value.allAlike_refl args)
    (forall₂_refl (fun e => ⟨rfl, .refl e.2⟩) named)).follows fun a b related => ?_
  cases related with
  | none => rfl
  | some alike => rw [alike.eq]

end Following
end Stencil
