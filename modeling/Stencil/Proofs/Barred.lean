import Stencil.Proofs.Operations

/-!
# Renderings that call no method of a container

A method of a list, a dict or a set is the only thing in the language that can change a container
other than the variables at hand. In a *barred* environment such methods are found as ever, but to
call one fails. A rendering that succeeds there never called one, so it does exactly what it does in
the environment itself (`Environment.barred_follows`), and its expressions leave all containers as
they are.
-/

namespace Stencil

open Step (Fails Follows Respects)
open Store (Extends)

def Container.Methods.barred (methods : Methods) : Methods :=
  fun v name => (methods v name).map fun _ _ => throw .stuck

def Scope.barred (scope : Scope) : Scope := { scope with methods := scope.methods.barred }

def Environment.barred (env : Environment) : Environment :=
  { env with methods := env.methods.barred }

namespace Attribute

open Node (Access)

theorem ofContainer_barred (methods : Container.Methods) (v : Value) (key : String)
    (args : List Value) (access : Access) (otherwise : Raised) :
    Follows Extends (ofContainer methods.barred v key args access otherwise)
      (ofContainer methods v key args access otherwise) := by
  unfold ofContainer Container.Methods.barred
  cases methods v key with
  | none => exact .pure _
  | some m =>
    dsimp only [Option.map_some]
    split
    · refine Follows.of_fails fun s a s' h => ?_
      cases h
    · split
      · exact Act.newHandle_extends.bind fun _ => .pure _
      · exact .pure _

end Attribute

/-! ## Whole environments -/

abbrev Accord.growing : Accord .same := .following Extends fun _ _ => id

theorem Scope.milder_barred (scope : Scope) : scope.Milder .growing scope.barred :=
  ⟨rfl, .inl rfl, rfl⟩

/-- A callable that calls no method of a container and changes none in any other way. -/
def Callable.Steady (c : Callable) : Prop :=
  ∀ (scope : Scope) args named, Follows Extends (c scope.barred args named) (c scope args named)

theorem Callable.Accords.steady {c : Callable} (h : c.Accords .growing) : c.Steady :=
  fun scope => h.follows scope.milder_barred

theorem Language.core_steady : Extension.core.All Callable.Steady :=
  core_accords.mono fun _ h => h.steady

namespace Environment

variable {env : Environment}

/-- **What succeeds without a method of a container succeeds in the environment itself**, and leaves
all containers as they are. -/
theorem barred_follows (hcallables : ∀ c, env.registry.Offers c → c.Steady) :
    env.barred.FollowedBy Extends env where
  registry := rfl
  operation h := h.follows (fun _ _ => id) (fun template => (env.scope template).milder_barred)
    (Attribute.ofContainer_barred env.methods)
  callable c hc template := hcallables c hc (env.scope template)

theorem barred_steady (hcallables : ∀ c, env.registry.Offers c → c.Steady) :
    env.barred.FollowedBy Extends env.barred where
  registry := rfl
  operation h := h.follows (fun _ _ => id) (fun _ => .refl _) fun v key args access otherwise =>
    (Attribute.ofContainer_barred env.methods v key args access otherwise).self
  callable c hc template args named := (hcallables c hc (env.scope template) args named).self

end Environment
end Stencil
