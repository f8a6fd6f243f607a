import Mathlib
import Stencil.Proofs.Loading
import Stencil.Proofs.Operations
import Stencil.Proofs.Verbatim

/-!
# Strictness only turns values into errors

With strict variables, a variable or attribute that does not exist is an error, and with strict types
so is an operation on values of the wrong types. A rendering that succeeds under such options never
came to one of these errors, so it goes the same way without them: it shows the same, and leaves the
same world behind.
-/

namespace Stencil

open Step (Follows Any)

/-- A scope that differs from another at most in having less strict options. -/
structure Scope.Laxer (lax strict : Scope) : Prop where
  template : lax.template = strict.template
  options : lax.options.Laxer strict.options
  host : lax.host = strict.host
  methods : lax.methods = strict.methods

/-! ## Operations -/

theorem Scope.Laxer.milder {lax strict : Scope} (h : lax.Laxer strict) :
    lax.Milder (.following Any fun _ _ _ => trivial) strict :=
  ⟨h.template, .inr ⟨trivial, h.options⟩, h.host⟩

/-! ## Callables -/

/-- A callable that is followed, in a laxer scope, by itself. -/
def Callable.Tolerant (c : Callable) : Prop :=
  ∀ {lax strict : Scope}, lax.Laxer strict → ∀ args named,
    Follows Any (c strict args named) (c lax args named)

theorem Callable.Accords.tolerant {c : Callable}
    (h : c.Accords (.following Any fun _ _ _ => trivial)) : c.Tolerant :=
  fun hlax => h.follows hlax.milder

/-! ## Whole renderings -/

namespace Environment

variable {lax strict : Options} {env : Environment}

theorem build_laxer (hlax : lax.Laxer env.options) (source name : String) :
    ({ env with options := lax } : Environment).build source name = env.build source name := by
  unfold build tree parse
  rw [hlax.autoescape]
  rfl

theorem loadTemplate_laxer (hlax : lax.Laxer env.options) (name : String) :
    ({ env with options := lax } : Environment).loadTemplate name = env.loadTemplate name := by
  unfold loadTemplate load
  simp only [build_laxer hlax]

theorem parallel_laxer (hlax : lax.Laxer env.options)
    (hcallables : ∀ c, env.registry.Offers c → c.Tolerant) :
    env.Parallel Step.Any Eq (fun _ => False) { env with options := lax } where
  matching := ⟨fun h => h ▸ rfl, fun h _ => h ▸ rfl, fun _ _ _ never => never⟩
  follows :=
    { registry := rfl
      operation := fun h => h.follows (fun _ _ _ => trivial)
        (fun _ => Scope.Laxer.milder ⟨rfl, hlax, rfl, rfl⟩) fun _ _ _ _ _ => Follows.any _
      callable := fun c hc _ => hcallables c hc ⟨rfl, hlax, rfl, rfl⟩ }
  loads := fun name => by
    rw [loadTemplate_laxer hlax]
    exact Step.Tracks.refl _
  cached := fun h _ _ found => h ▸ found

variable {extensions : List Extension} {source : String → Except Failure String} {host : Host}

theorem make_laxer (hlax : lax.Laxer strict) (made : make strict extensions source host = .ok env) :
    make lax extensions source host = .ok { env with options := lax } ∧ env.options = strict ∧
      env.registry = (Registry.ofExtensions (.core :: extensions)).1 := by
  have complaints : lax.complaints = strict.complaints := by
    unfold Options.complaints
    rw [hlax.templateDirs, hlax.autoescape]
  unfold make at made ⊢
  rw [complaints]
  split at made
  · cases made
  · dsimp only at made ⊢
    split at made
    · cases made
    · cases made
      exact ⟨rfl, rfl, rfl⟩

/-- **Less strict options show the same.**  Whatever templates, variables and objects there are:
what an environment shows under strict options, the environment with laxer ones shows, too. -/
theorem render_of_stricter (hlax : lax.Laxer strict) {extensions : List Extension}
    (hextensions : ∀ e ∈ extensions, e.All Callable.Tolerant)
    {source : String → Except Failure String} {host : Host}
    (made : make strict extensions source host = .ok env) :
    ∃ env', make lax extensions source host = .ok env' ∧
      ∀ (name : String) (bindings : List (String × Plain)) (w : World) (shown : String) (w' : World),
        env.render name bindings w = .ok shown w' → env'.render name bindings w = .ok shown w' := by
  obtain ⟨made', rfl, hregistry⟩ := make_laxer hlax made
  refine ⟨_, made', fun name bindings w shown w' rendered => ?_⟩
  have tolerant : ∀ c, env.registry.Offers c → c.Tolerant := by
    rw [hregistry]
    exact Registry.forall_offers
      (List.forall_mem_cons.2 ⟨Language.core_accords.mono fun _ h => h.tolerant, hextensions⟩)
  have kept := render_sim (P := fun _ => False) (parallel_laxer hlax tolerant) name bindings
  exact kept.same rendered

def noteSource : String := "at \x7b\x7b x.y \x7d\x7d"

def noteTokens : Array Token :=
  #[⟨.text, "at ", 1⟩, ⟨.printStart, "", 1⟩, ⟨.name, "x", 1⟩, ⟨.punctuation, ".", 1⟩, ⟨.name, "y", 1⟩,
    ⟨.printEnd, "", 1⟩, ⟨.endOfTemplate, "", 1⟩]

def noteItem : Node :=
  .ofAccess (.ofName "x" 1) (.ofString "y" 1) (.plain .arguments 1 []) .any 1

def noteBody : Node := .ofBody [.ofText "at " 1, .ofPrint noteItem 1] 1

def noteTemplate : Template where
  name := "note"
  unit := unitName "note" noteSource
  body := .seq (.text "at ") (.seq (.print (.attr (.reading "x" false 1) (.constant (.text "y")) [] .any
    false false 1) 1) .skip)
  parent := none
  endMark := 1
  parentMark := 1
  blocks := []

def strictOptions : Options := { strictVariables := true, strictTypes := true }

def noteEnvironment : Environment := ofCore strictOptions (fun _ => .ok noteSource) ⟨#[]⟩

theorem build_note : noteEnvironment.build noteSource "note" = .ok noteTemplate := by
  have scanned : noteEnvironment.tokenize noteSource "note" = .ok noteTokens :=
    tokenize_core _ _ _ (by decide +kernel) "note"
  have read : noteEnvironment.tree noteSource "note" =
      .ok (.ofModule noteBody .absent [] "note") := by
    rw [tree, scanned]
    with_unfolding_all rfl
  have printed : noteItem.IsExpression := Node.isExpression_triple rfl (Node.isExpression_leaf rfl ..)
    (Node.isExpression_leaf rfl ..) (Node.isExpression_leaf rfl ..)
  have shows : Listing.Showing noteBody :=
    .body (List.forall_mem_cons.2 ⟨.text _ _, List.forall_mem_singleton.2 (.print printed _)⟩) _
  exact build_showing read shows (by decide +kernel) rfl

def noteData : List (String × Plain) := [("x", .map [.text "y"] [.text "home"])]

def noteStore : Store :=
  ⟨#[], #[.ready [(.text "y", .text "home")], .ready [(.text "x", .dict 0)]], #[], 0, 0⟩

theorem render_of_stricter_item : ∃ env env' w',
    make strictOptions [] (fun _ => .ok noteSource) ⟨#[]⟩ = .ok env ∧
    make {} [] (fun _ => .ok noteSource) ⟨#[]⟩ = .ok env' ∧
    env.render "note" noteData World.start = .ok "at home" w' ∧
    env'.render "note" noteData World.start = .ok "at home" w' := by
  have laxer : Options.Laxer {} strictOptions := ⟨by decide, by decide, rfl, rfl, rfl⟩
  have made := make_core strictOptions (by decide) (fun _ => .ok noteSource) ⟨#[]⟩
  obtain ⟨env', made', same⟩ := render_of_stricter laxer (fun _ h => absurd h List.not_mem_nil) made
  have context : Plain.context noteData .empty = .ok (.dict 1) noteStore := by cbv
  have rendered : noteEnvironment.render "note" noteData World.start =
        .ok "at home" ⟨noteStore, [(unitName "note" noteSource, noteTemplate)], 0, 1⟩ :=
    Step.bind_ok.2 ⟨noteTemplate, _,
      loadTemplate_ok.2 ⟨noteSource, rfl, load_ok.2 (Or.inr ⟨rfl, build_note, rfl⟩)⟩,
      Step.bind_ok.2 ⟨_, _, Task.ofAct_ok.2 ⟨_, context, rfl⟩, Task.finish_ok.2 rfl⟩⟩
  exact ⟨_, env', _, made, made', rendered, same _ _ _ _ _ rendered⟩

end Environment
end Stencil
