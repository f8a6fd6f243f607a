import Stencil.Proofs.Lineage
import Stencil.Proofs.Operations

/-!
# Which definition of a block is shown

A template that extends others can be read in a simple way. Along its chain, every block has one
definition that counts: that of the lowest level that has one. Wherever a block is shown, that
definition is; what the parent of a level has for a block is the definition at the lowest level above
it; and the template shows what the last one of the chain shows, after the others have run.

`lawful` says just that, without parents that are looked up one by one and without tables of blocks
that are put on top of each other. This file shows that rendering comes to the same, in both
directions (`tied_display`).

There is one thing that rendering does not do: when `parent()` is called in a block of a level that
is not in force, that level is left out of the blocks in force from there on. That does no harm if
every block of the level has a definition in force already. Otherwise a definition that counts may
be overlooked, and `lawful` gives up. The last template of a chain has all levels in force, so it is
never given up there.
-/

namespace Stencil

open List Environment Render Stencil.Frame
open Step (Sim Tracks)

/-! ## The law -/

namespace Inheritance

section Law

variable (env : Environment) (root : String) (ts : List Template)

def shown (code : Nat → Calls) (context : Nat) : Option (Nat × Template × Stmt) → Eval String
  | none => Eval.fail .nothingFound
  | some (level, owner, body) => do
    (env.frame root owner (← copyOf context) []).run (code level) body

/-- What is called from code at level `i` while the first `m` levels are in force. -/
def lawful : Nat → Nat → Nat → Calls
  | 0, _, _ => noCalls
  | depth + 1, i, m =>
    { display := (callsAt env root (depth + 1)).display
      displayBlock := fun _ name context _ _ =>
        shown env root (fun j => lawful depth j (max m j)) context (definition? ts name 0)
      displayParentBlock := fun _ name context _ =>
        if dispensable ts i m then
          shown env root (fun j => lawful depth j (max m j)) context (definition? ts name (i + 1))
        else Eval.fail .stuck
      displayParent := fun _ _ _ => Eval.fail .nothingFound }

/-- What the templates of a chain from level `i` on show with some variables: all of them run, and
the last one is shown. -/
def bodies (depth context : Nat) : Nat → List Template → Eval String
  | _, [] => Eval.fail .nothingFound
  | i, [t] => (env.frame root t context []).run (lawful env root ts depth i (i + 1)) t.body
  | i, t :: p :: rest => do
    let _ ← (env.frame root t context []).run (lawful env root ts depth i (i + 1)) t.body
    bodies depth context (i + 1) (p :: rest)

end Law

/-! ## Worlds that know the chain -/

/-- Templates that an environment makes of its sources. -/
def Makes (env : Environment) (known : List (String × Template)) : Prop :=
  ∀ {name source : String} {t : Template}, env.source name = .ok source →
    known.lookup (unitName name source) = some t → env.build source name = .ok t

/-- Two worlds with one store. The second has all templates that the first has, and those that are
known besides; and it has all that there are in a cache. -/
structure Knowing (cache known : List (String × Template)) (w v : World) : Prop where
  store : w.store = v.store
  found : ∀ unit, v.cache.lookup unit = (w.cache.lookup unit).or (known.lookup unit)
  kept : ∀ unit t, cache.lookup unit = some t → v.cache.lookup unit = some t

/-- A fault that says that a rendering was given up. -/
def GaveUp (fault : Fault) : Prop := fault.failure = .stuck

section Worlds

variable {env : Environment} {cache known : List (String × Template)}

namespace Knowing

variable {w v : World} {unit : String} {t : Template}

theorem counted (h : Knowing cache known w v) (hits hits' : Nat) :
    Knowing cache known { w with hits } { v with hits := hits' } :=
  ⟨h.store, h.found, h.kept⟩

theorem made (h : Knowing cache known w v) (hv : v.cache.lookup unit = some t)
    (misses hits : Nat) :
    Knowing cache known { w with misses, cache := (unit, t) :: w.cache } { v with hits } := by
  refine ⟨h.store, fun u => ?_, h.kept⟩
  rw [lookup_cons]
  cases same : u == unit with
  | true =>
    rw [eq_of_beq same]
    exact hv
  | false => exact h.found u

theorem madeInBoth (h : Knowing cache known w v) (hv : v.cache.lookup unit = none)
    (misses misses' : Nat) :
    Knowing cache known { w with misses, cache := (unit, t) :: w.cache }
      { v with misses := misses', cache := (unit, t) :: v.cache } := by
  refine ⟨h.store, fun u => ?_, fun u t' hu => ?_⟩
  · rw [lookup_cons, lookup_cons]
    cases u == unit with
    | true => rfl
    | false => exact h.found u
  · have kept := h.kept u t' hu
    rw [lookup_cons]
    cases same : u == unit with
    | true =>
      rw [eq_of_beq same, hv] at kept
      cases kept
    | false => exact kept

end Knowing

theorem loadTemplate_tracks (hknown : Makes env known) (name : String) :
    Tracks (Knowing cache known) (env.loadTemplate name) (env.loadTemplate name) := by
  constructor
  · intro w v hwv t w' loaded
    obtain ⟨source, given, loaded⟩ := loadTemplate_ok.1 loaded
    have found := hwv.found (unitName name source)
    rcases load_ok.1 loaded with ⟨hit, rfl⟩ | ⟨miss, built, rfl⟩
    · rw [hit] at found
      exact ⟨_, loadTemplate_ok.2 ⟨source, given, load_ok.2
        (Or.inl ⟨found, rfl⟩)⟩, hwv.counted _ _⟩
    · rw [miss, Option.none_or] at found
      rw [unit_of_build built]
      cases hk : known.lookup (unitName name source) with
      | some t' =>
        -- made in one world and found in the other: what is known is what would be made
        have same := hknown given hk
        rw [built] at same
        cases same
        rw [hk] at found
        exact ⟨_, loadTemplate_ok.2 ⟨source, given, load_ok.2
          (Or.inl ⟨found, rfl⟩)⟩, hwv.made found _ _⟩
      | none =>
        rw [hk] at found
        refine ⟨_, loadTemplate_ok.2 ⟨source, given, load_ok.2
          (Or.inr ⟨found, built, rfl⟩)⟩, ?_⟩
        rw [unit_of_build built]
        exact hwv.madeInBoth found _ _
  · intro w v hwv f w' failed
    rcases loadTemplate_error.1 failed with ⟨missing, rfl⟩ | ⟨source, given, failed⟩
    · exact ⟨v, loadTemplate_error.2 (Or.inl ⟨missing, rfl⟩), hwv⟩
    · obtain ⟨miss, failing, rfl⟩ := load_error.1 failed
      have found := hwv.found (unitName name source)
      rw [miss, Option.none_or] at found
      cases hk : known.lookup (unitName name source) with
      | some t' =>
        rw [hknown given hk] at failing
        cases failing
      | none =>
        rw [hk] at found
        exact ⟨_, loadTemplate_error.2 (Or.inr ⟨source, given,
          load_error.2 ⟨found, failing, rfl⟩⟩), hwv.store, hwv.found, hwv.kept⟩

theorem parallel (hknown : Makes env known) :
    env.Parallel Step.Any (Knowing cache known) GaveUp env where
  matching :=
    { store := fun h => h.store
      put := fun h _ => ⟨rfl, h.found, h.kept⟩
      placed := fun frame mark fault h => by
        unfold GaveUp placed at *
        rw [h]
        rfl }
  follows := .refl env
  loads := loadTemplate_tracks hknown
  cached h _ _ found := by
    rw [h.found, found, Option.some_or]

/-- The parent of a template of a chain is the next one; to find it, it may have to be made. -/
theorem parentOf_ok (hknown : Makes env known) (root : String) (calls : Calls) {t p : Template}
    {name source : String} (parent : t.parent = some (.constant (.text name)))
    (given : env.source name = .ok source)
    (found : cache.lookup (unitName name source) = some p) (context : Nat)
    {w v : World} (hwv : Knowing cache known w v) :
    ∃ w', parentOf env root calls t context w = .ok (some p) w' ∧
      Knowing cache known w' v := by
  have hv := hwv.kept _ _ found
  have loads : ∃ w', env.loadTemplate name w = .ok p w' ∧ Knowing cache known w' v := by
    have either := hwv.found (unitName name source)
    rw [hv] at either
    cases hw : w.cache.lookup (unitName name source) with
    | some t' =>
      rw [hw, Option.some_or] at either
      cases either
      exact ⟨_, loadTemplate_ok.2 ⟨source, given, load_ok.2
        (Or.inl ⟨hw, rfl⟩)⟩, hwv.counted _ v.hits⟩
    | none =>
      rw [hw, Option.none_or] at either
      have built := hknown given either.symm
      refine ⟨_, loadTemplate_ok.2 ⟨source, given, load_ok.2
        (Or.inr ⟨hw, built, rfl⟩)⟩, ?_⟩
      rw [unit_of_build built]
      exact hwv.made hv _ v.hits
  obtain ⟨w', loaded, hwv'⟩ := loads
  refine ⟨w', ?_, hwv'⟩
  have named : value calls (env.frame root t context []) (.constant (.text name)) w =
      .ok (.text name) w := by
    rw [value]
    rfl
  unfold parentOf
  rw [parent]
  refine Step.bind_ok.2 ⟨_, w, located_ok.2 named, ?_⟩
  exact Step.tryCatch_ok.2 (Or.inl (Step.bind_ok.2
    ⟨p, w', Eval.ofTask_ok.2 loaded, Step.pure_ok.2 ⟨rfl, rfl⟩⟩))

end Worlds

/-! ## Rendering and the law -/

theorem makes_nil {env : Environment} : Makes env [] := fun _ h => nomatch h

section Rendering

variable {env : Environment} {root : String} {cache known : List (String × Template)}

theorem Knowing.symm {w v : World} (h : Knowing cache [] w v) : Knowing cache [] v w := by
  have same : ∀ unit, w.cache.lookup unit = v.cache.lookup unit := by
    intro unit
    rw [h.found unit]
    exact (Option.or_none).symm
  refine ⟨h.store.symm, fun unit => ?_, fun unit t ht => ?_⟩
  · rw [same unit]
    exact (Option.or_none).symm
  · rw [same unit]
    exact h.kept unit t ht

variable (env cache) in
theorem parallel_nil : env.Parallel Step.Any (Knowing cache []) (fun _ => False) env :=
  (parallel makes_nil).never

variable (cache known) in
/-- What is rendered and what the law says, compared in one direction: either the law keeps up with
rendering, unless it gives up, or rendering with the law, once all templates have been made. -/
def Tied (forth : Bool) (x y : Eval String) : Prop :=
  if forth then Sim (Knowing cache known) GaveUp x y
  else Sim (Knowing cache []) (fun _ => False) y x

variable (cache known) in
def TiedCalls (forth : Bool) (calls calls' : Calls) (frame frame' : Frame) : Prop :=
  if forth then calls.Match (Knowing cache known) GaveUp calls' frame frame'
  else calls'.Match (Knowing cache []) (fun _ => False) calls frame' frame

variable {forth : Bool} {ts : List Template} (hknown : Makes env known)

theorem Tied.located {x y : Eval String} (frame : Frame) (mark : Int)
    (h : Tied cache known forth x y) : Tied cache known forth (frame.located mark x) y := by
  cases forth with
  | true => exact fun w v hwv out w' ok => h w v hwv out w' (located_ok.1 ok)
  | false => exact sim_located _ _ h

theorem Tied.bind {x y : Eval String} {f g : String → Eval String} (h : Tied cache known forth x y)
    (next : ∀ out, Tied cache known forth (f out) (g out)) :
    Tied cache known forth (x >>= f) (y >>= g) := by
  cases forth with
  | true | false => exact Sim.bind h next

include hknown

theorem tied_run {calls calls' : Calls} {t : Template} {context : Nat} {blocks : Blocks}
    (hcalls : TiedCalls cache known forth calls calls' (env.frame root t context blocks)
      (env.frame root t context [])) (body : Stmt) :
    Tied cache known forth ((env.frame root t context blocks).run calls body)
      ((env.frame root t context []).run calls' body) := by
  cases forth with
  | true => exact run_sim (env.frame root t context blocks) (parallel hknown) hcalls body
  | false => exact run_sim (env.frame root t context []) (parallel_nil env cache) hcalls body

theorem tied_runBlock {calls calls' : Calls} {t : Template} {blocks : Blocks}
    (hcalls : ∀ context, TiedCalls cache known forth calls calls' (env.frame root t context blocks)
      (env.frame root t context [])) (context : Nat) (body : Stmt) :
    Tied cache known forth (runBlock env root calls context blocks (.code t body))
      (do (env.frame root t (← copyOf context) []).run calls' body) := by
  have run := fun copy => tied_run hknown (hcalls copy) body
  cases forth with
  | true => exact (copyOf_sim (parallel hknown) context).bind run
  | false => exact (copyOf_sim (parallel_nil env cache) context).bind run

variable (chain : Lineage env cache ts)

include chain

variable {calls : Calls} {i depth n bound m : Nat} {blocks : Blocks} {t : Template}

theorem tied_parent (ht : ts[i]? = some t) (context : Nat) {f : Option Template → Eval String}
    {y : Eval String} (hnone : Step.Fails (f none)) (hlast : ts[i + 1]? = none → Step.Fails y)
    (hsome : ∀ p, ts[i + 1]? = some p → Tied cache known forth (f (some p)) y) :
    Tied cache known forth (parentOf env root calls t context >>= f) y := by
  cases forth with
  | true =>
    intro w v hwv out w' ok
    obtain ⟨parent, w₁, hparent, ok⟩ := Step.bind_ok.1 ok
    rcases chain.level ht with ⟨none, -⟩ | ⟨p, name, source, hp, named, given, found⟩
    · unfold parentOf at hparent
      rw [none] at hparent
      obtain ⟨rfl, rfl⟩ := Step.pure_ok.1 hparent
      exact absurd ok (hnone _ _ _)
    · obtain ⟨w₂, hp', hwv'⟩ := parentOf_ok hknown root calls named given found context hwv
      rw [hp'] at hparent
      cases hparent
      exact hsome p hp w₁ v hwv' out w' ok
  | false =>
    intro w v hwv out w' ok
    rcases chain.level ht with ⟨-, final⟩ | ⟨p, name, source, hp, named, given, found⟩
    · rw [drop_eq_nil_iff] at final
      exact absurd ok (hlast (getElem?_eq_none final) _ _ _)
    · obtain ⟨v₁, hparent, hwv₁⟩ := parentOf_ok makes_nil root calls named given found context
        hwv.symm
      rcases hsome p hp w v₁ hwv₁.symm out w' ok with ⟨v', hf, hwv'⟩ | ⟨_, _, _, never⟩
      · exact Or.inl ⟨v', Step.bind_ok.2 ⟨_, v₁, hparent, hf⟩, hwv'⟩
      · exact never.elim

omit hknown chain in
theorem fails_shown {code : Nat → Calls} {name : String} {context : Nat} (last : ts[i]? = none) :
    Step.Fails (shown env root code context (definition? ts name i)) := by
  unfold definition?
  rw [drop_eq_nil_of_le (List.getElem?_eq_none_iff.1 last)]
  exact Eval.fails_fail _

variable (env root cache known ts) in
/-- All that is called from code of the chain keeps to the law, up to a depth. -/
def KeepsLaw (forth : Bool) (calls : Calls) (depth : Nat) : Prop :=
  ∀ {i m : Nat} {blocks : Blocks} {t : Template}, ts[i]? = some t → i ≤ m → InForce ts m blocks →
    ∀ context, TiedCalls cache known forth calls (lawful env root ts depth i m)
      (env.frame root t context blocks) (env.frame root t context [])

/-- Looking for a block from a level on, through the parents, one by one. For rendering to keep up
with the law, it takes depth for one more call at every level. -/
theorem tied_climb (below : ∀ d < n, (forth = false → bound ≤ d) →
      KeepsLaw env root cache known ts forth (callsAt env root d) depth)
    {k : Nat} (deep : forth = false → bound + (ts.length - k) ≤ n) (ht : ts[k]? = some t)
    (hblocks : InForce ts (max m k) blocks) (name : String) (context : Nat) :
    Tied cache known forth ((callsAt env root n).displayBlock t name context blocks false)
      (shown env root (fun j => lawful env root ts depth j (max m j)) context
        (definition? ts name k)) := by
  obtain ⟨hk, -⟩ := List.getElem?_eq_some_iff.1 ht
  -- the induction is on the depth: every level that is climbed takes one call
  induction n generalizing k blocks t with
  | zero =>
    cases forth with
    | true => exact .of_fails (Eval.fails_fail _)
    | false =>
      have := deep rfl
      omega
  | succ n ih =>
    change Tied _ _ _ (displayBlock env root (callsAt env root n) t name context
      blocks false) _
    unfold displayBlock
    rw [definition?_succ ht]
    simp only [Bool.false_eq_true, if_false, Option.none_or, t.lookup_ownBlocks]
    cases t.blocks.lookup name with
    | some body =>
      have enough (back : forth = false) : bound ≤ n := by
        have := deep back
        omega
      exact tied_runBlock hknown (below n (Nat.lt_succ_self _) enough ht (Nat.le_max_right _ _)
        hblocks) context body
    | none =>
      refine tied_parent hknown chain ht context ?_ fails_shown fun p hp => ?_
      · dsimp only
        split
        · exact fails_raise _ 0 _ _
        · exact fails_raise _ 0 _ _
      · have atop := hblocks.atop ht (Nat.le_max_right m k)
        rw [show max (max m k) (k + 1) = max m (k + 1) by omega] at atop
        refine ih (fun d hd => below d (by omega)) (fun back => ?_) hp atop
          (List.getElem?_eq_some_iff.1 hp).1
        have := deep back
        omega

/-- A block, wherever it is shown, is shown as it is defined at the lowest level. -/
theorem tied_displayBlock (below : ∀ d ≤ n, (forth = false → bound ≤ d) →
      KeepsLaw env root cache known ts forth (callsAt env root d) depth)
    (deep : forth = false → bound + ts.length ≤ n) (ht : ts[i]? = some t) (him : i ≤ m)
    (hblocks : InForce ts m blocks) (name : String) (context : Nat) :
    Tied cache known forth
      (displayBlock env root (callsAt env root n) t name context blocks true)
      (shown env root (fun j => lawful env root ts depth j (max m j)) context
        (definition? ts name 0)) := by
  have enough (back : forth = false) : bound ≤ n := Nat.le_of_add_right_le (deep back)
  unfold displayBlock
  simp only [if_true, hblocks name, t.lookup_ownBlocks]
  cases inForce : firstDefinition? name 0 (ts.take m) with
  | some found =>
    obtain ⟨j, owner, body⟩ := found
    rw [definition?_of_take inForce]
    obtain ⟨-, hj, -, -⟩ := firstDefinition?_eq_some inForce
    obtain ⟨hjm, hj⟩ := getElem?_take hj
    have run := below n (Nat.le_refl _) enough hj (Nat.le_of_lt hjm) hblocks
    rw [show m = max m j by omega] at run
    exact tied_runBlock hknown run context body
  | none =>
    rw [definition?_eq_of_take_none ht him inForce, definition?_succ ht]
    cases t.blocks.lookup name with
    | some body =>
      have run := below n (Nat.le_refl _) enough ht him hblocks
      rw [show m = max m i by omega] at run
      exact tied_runBlock hknown run context body
    | none =>
      refine tied_parent hknown chain ht context ?_ fails_shown fun p hp => ?_
      · dsimp only
        split
        · exact fails_raise _ 0 _ _
        · exact fails_raise _ 0 _ _
      · refine tied_climb hknown chain (fun d hd => below d (Nat.le_of_lt hd)) (fun back => ?_) hp
          (hblocks.atop ht him) name context
        have := deep back
        omega

/-- What the parent has for a block is the definition at the lowest level above, unless it is given
up. -/
theorem tied_displayParentBlock (below : ∀ d < n, (forth = false → bound ≤ d) →
      KeepsLaw env root cache known ts forth (callsAt env root d) depth)
    (deep : forth = false → bound + ts.length ≤ n) (ht : ts[i]? = some t) (him : i ≤ m)
    (hblocks : InForce ts m blocks) (name : String) (context : Nat) :
    Tied cache known forth
      (displayParentBlock env root (callsAt env root n) t name context blocks)
      (if dispensable ts i m then shown env root (fun j => lawful env root ts depth j (max m j))
        context (definition? ts name (i + 1)) else Eval.fail .stuck) := by
  cases hi : dispensable ts i m with
  | false =>
    cases forth with
    | true => exact fun _ v _ _ _ _ => Or.inr ⟨⟨.stuck, 0⟩, v, rfl, rfl⟩
    | false => exact .of_fails (Eval.fails_fail _)
  | true =>
    refine tied_parent hknown chain ht context (fails_raise _ 0 _ _) fails_shown fun p hp => ?_
    refine tied_climb hknown chain below (fun back => ?_) hp (hblocks.skip ht him hi) name context
    have := deep back
    omega

variable (ts) in
/-- How deep rendering goes compared with the law. Rendering takes calls for the parents that are asked
on the way, so it has to go deeper to keep up. -/
def Deep (forth : Bool) (n depth : Nat) : Prop :=
  if forth then n ≤ depth else depth * (ts.length + 1) ≤ n

omit hknown chain in
theorem match_noCalls {E : World → World → Prop} {P : Fault → Prop} (frame frame' : Frame) :
    noCalls.Match E P calls frame frame' where
  display _ _ := .of_fails (Eval.fails_fail _)
  displayBlock _ := .of_fails (Eval.fails_fail _)
  displayParentBlock _ := .of_fails (Eval.fails_fail _)

/-- **All that is called from code of a chain keeps to the law**, and what the law says is called. -/
theorem keepsLaw_callsAt (root : String) (depth n : Nat) (deep : Deep ts forth n depth) :
    KeepsLaw env root cache known ts forth (callsAt env root n) depth := by
  -- back, a call that the law allows may climb the whole chain, so that rendering needs
  -- `ts.length + 1` times the depth; forth, the law needs no more depth than rendering
  induction depth generalizing n with
  | zero =>
    intro i m blocks t _ _ _ context
    cases forth with
    | true =>
      cases Nat.le_zero.1 deep
      exact match_noCalls _ _
    | false => exact match_noCalls _ _
  | succ depth ih =>
    intro i m blocks t ht him hblocks context
    cases n with
    | zero =>
      cases forth with
      | true => exact match_noCalls _ _
      | false => exact absurd deep (Nat.not_le_of_gt (Nat.mul_pos (Nat.succ_pos _) (Nat.succ_pos _)))
    | succ n =>
      have room (back : forth = false) : depth * (ts.length + 1) + ts.length ≤ n := by
        subst back
        have deep : (depth + 1) * (ts.length + 1) ≤ n + 1 := deep
        rw [Nat.succ_mul] at deep
        omega
      have below (d : Nat) (hd : d ≤ n) (enough : forth = false → depth * (ts.length + 1) ≤ d) :
          KeepsLaw env root cache known ts forth (callsAt env root d) depth := by
        refine ih d ?_
        cases forth with
        | true => exact Nat.le_trans hd (Nat.le_of_succ_le_succ deep)
        | false => exact enough rfl
      have block := fun name => tied_displayBlock hknown chain below room ht him hblocks name context
      have parentBlock := fun name => tied_displayParentBlock hknown chain
        (fun d hd => below d (Nat.le_of_lt hd)) room ht him hblocks name context
      cases forth with
      | true =>
        exact ⟨⟨block, parentBlock⟩, fun t context =>
          sim_of_rel_eq ((callsAt_alike (parallel hknown) root root deep).display t rfl [])⟩
      | false =>
        have alike := callsAt_alike (parallel_nil env cache) root root
          (Nat.le_trans (Nat.le_mul_of_pos_right _ (Nat.succ_pos _)) deep)
        exact ⟨⟨block, parentBlock⟩, fun t context => sim_of_rel_eq (alike.display t rfl [])⟩

/-- Templates of a chain that are displayed, one after the other, with the blocks of lower levels in
force. -/
theorem tied_display (root : String) (forth : Bool)
    (deep : if forth then n ≤ depth + 1 else depth * (ts.length + 1) + 2 * (ts.length - i) ≤ n)
    (ht : ts[i]? = some t) (hblocks : InForce ts i blocks) (context : Nat) :
    Tied cache known forth ((callsAt env root n).display t context blocks)
      (bodies env root ts depth context i (ts.drop i)) := by
  -- to display a parent takes two calls, so the hypothesis is used at `n - 2`
  induction n using Nat.strongRecOn generalizing i blocks t with
  | ind n ih =>
    obtain ⟨hi, rfl⟩ := List.getElem?_eq_some_iff.1 ht
    cases n with
    | zero =>
      cases forth with
      | true => exact .of_fails (Eval.fails_fail _)
      | false =>
        have deep : depth * (ts.length + 1) + 2 * (ts.length - i) ≤ 0 := deep
        omega
    | succ n =>
      have inForce : InForce ts (i + 1) (blocks.atop ts[i].ownBlocks) := by
        have atop := hblocks.atop ht (Nat.le_refl i)
        rwa [Nat.max_eq_right (Nat.le_succ i)] at atop
      have law : Deep ts forth n depth := by
        cases forth with
        | true => exact Nat.le_of_succ_le_succ deep
        | false =>
          have deep : depth * (ts.length + 1) + 2 * (ts.length - i) ≤ n + 1 := deep
          show depth * (ts.length + 1) ≤ n
          omega
      have run := tied_run hknown (keepsLaw_callsAt hknown chain root depth n law ht (Nat.le_succ i)
        inForce context) ts[i].body
      rw [drop_eq_getElem_cons hi]
      change Tied _ _ _ (display env root (callsAt env root n) ts[i] context blocks) _
      unfold display
      rcases chain.level ht with ⟨none, final⟩ | ⟨p, name, source, hp, named, given, found⟩
      · rw [none, final]
        simp only [bind_pure]
        exact run
      · obtain ⟨hi', rfl⟩ := List.getElem?_eq_some_iff.1 hp
        rw [named, drop_eq_getElem_cons hi', bodies]
        refine run.bind fun _ => .located _ _ ?_
        cases n with
        | zero =>
          cases forth with
          | true => exact .of_fails (Eval.fails_fail _)
          | false =>
            have deep : depth * (ts.length + 1) + 2 * (ts.length - i) ≤ 1 := deep
            omega
        | succ n =>
          have later : if forth then n ≤ depth + 1
              else depth * (ts.length + 1) + 2 * (ts.length - (i + 1)) ≤ n := by
            cases forth with
            | true => exact Nat.le_of_succ_le (Nat.le_of_succ_le deep)
            | false =>
              have deep : depth * (ts.length + 1) + 2 * (ts.length - i) ≤ n + 2 := deep
              show depth * (ts.length + 1) + 2 * (ts.length - (i + 1)) ≤ n
              omega
          refine tied_parent hknown chain ht context (fails_raise _ 0 _ _) (fun last => ?_)
            fun p hp' => ?_
          · rw [hp] at last
            cases last
          · have below := inForce.atop ht (Nat.le_succ i)
            rw [Nat.max_self] at below
            have next := ih n (by omega) later hp' below
            rwa [drop_eq_getElem_cons hi'] at next

end Rendering

/-! ## Whole chains -/

def learned (w : World) (known : List (String × Template)) : World :=
  { w with cache := w.cache ++ known }

theorem knowing_self (w : World) : Knowing w.cache [] w w :=
  ⟨rfl, fun _ => Option.or_none.symm, fun _ _ h => h⟩

/-- **A chain of templates is rendered as the law says.**  What is rendered is what the law says,
unless it gives up; and what the law says is rendered, given enough depth. The templates of the
chain may be in the cache already, or may have to be made on the way. -/
theorem display_chain {env : Environment} (root : String) {t : Template} {ts : List Template}
    {w : World} {known : List (String × Template)} (hknown : Makes env known)
    (chain : Lineage env (w.cache ++ known) (t :: ts)) (context : Nat) :
    (∀ (depth : Nat) (out : String) (w' : World),
      (Render.callsAt env root depth).display t context [] w = .ok out w' →
      (∃ v, bodies env root (t :: ts) depth context 0 (t :: ts) (learned w known) = .ok out v ∧
        v.store = w'.store) ∨
      ∃ fault v, bodies env root (t :: ts) depth context 0 (t :: ts) (learned w known) =
        .error fault v ∧ GaveUp fault) ∧
    ∀ (depth : Nat) (out : String) (v : World),
      bodies env root (t :: ts) depth context 0 (t :: ts) (learned w known) = .ok out v →
      ∀ depth', depth * (ts.length + 2) + 2 * (ts.length + 1) ≤ depth' →
        ∃ w', (Render.callsAt env root depth').display t context [] (learned w known) = .ok out w' ∧
          w'.store = v.store := by
  constructor
  · intro depth out w' displayed
    have sim := tied_display hknown chain root true (Nat.le_succ depth) rfl InForce.nil context
    rcases sim w (learned w known) ⟨rfl, fun _ => lookup_append, fun _ _ h => h⟩ out w' displayed with
      ⟨v, shown, hwv⟩ | gaveUp
    · exact Or.inl ⟨v, shown, hwv.store.symm⟩
    · exact Or.inr gaveUp
  · intro depth out v shown depth' hdepth
    have enough : depth * ((t :: ts).length + 1) + 2 * ((t :: ts).length - 0) ≤ depth' := hdepth
    have sim := tied_display makes_nil chain root false enough rfl InForce.nil context
    rcases sim _ _ (knowing_self (learned w known)) out v shown with
      ⟨w', displayed, hvw⟩ | ⟨_, _, _, never⟩
    · exact ⟨w', displayed, hvw.store.symm⟩
    · exact never.elim

def frameTemplate : Template :=
  { name := "frame", unit := unitName "frame" "", parent := none, endMark := 1, parentMark := 1
    body := .seq (.text "[") (.seq (.block "b" 1) (.text "]"))
    blocks := [("b", .text "old")] }

def pageTemplate : Template :=
  { name := "page", unit := unitName "page" "", endMark := 1, parentMark := 1
    parent := some (.constant (.text "frame"))
    body := .skip
    blocks := [("b", .seq (.print (.parentBlock "b") 1) (.text "+"))] }

def pageWorld : World :=
  ⟨⟨#[], #[.filled []], #[], 0, 0⟩, [(unitName "frame" "", frameTemplate)], 0, 0⟩

theorem display_chain_page :
    Lineage (.ofCore {} (fun _ => .ok "") ⟨#[]⟩) (pageWorld.cache ++ [])
      [pageTemplate, frameTemplate] ∧
    ∃ w', (Render.callsAt (.ofCore {} (fun _ => .ok "") ⟨#[]⟩) "page" Render.depth).display
      pageTemplate 0 [] (learned pageWorld []) = .ok "[old+]" w' := by
  have chain : Lineage (.ofCore {} (fun _ => .ok "") ⟨#[]⟩) (pageWorld.cache ++ [])
      [pageTemplate, frameTemplate] :=
    .step rfl rfl (by simp [pageWorld]) (.last rfl)
  obtain ⟨w', displayed, -⟩ := (display_chain "page" makes_nil chain 0).2 3 "[old+]" _ rfl
    Render.depth (by decide)
  exact ⟨chain, w', displayed⟩

end Inheritance
end Stencil
