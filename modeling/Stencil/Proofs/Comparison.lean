import Stencil.Proofs.Correspondence

/-!
# Comparing two renderings

Two environments with the same language may differ in what their operations do, and two pieces of
code in what is called when they come to a block. If whatever succeeds on one side is kept up with on
the other, operation by operation and call by call, then so is every expression, every statement and
in the end every rendering: nothing in between looks at an environment in any other way.

What is here:

* `Environment.FollowedBy S env env'`: what is asked of the operations and callables of two
  environments. `S` is what a successful operation does to the store;
* `Calls.MatchBlocks` and `Calls.Match`: what is asked of the code that is called from some code;
* **expressions** (`Frame.value_sim`), **statements** (`Frame.run_sim`), **calls**
  (`Render.callsAt_alike`) and **renderings** (`Environment.render_sim`), each by induction along the
  program or the depth.

A rendering compared with itself gives what it does to the world.
-/

namespace Stencil

open Step (Fails Follows Respects Sim Tracks)

/-! ## What is compared -/

/-- What the operations and callables of an environment come to, those of another with the same
language come to. -/
structure Environment.FollowedBy (S : Store → Store → Prop) (env env' : Environment) : Prop where
  registry : env'.registry = env.registry
  operation : ∀ {α : Type} {R : α → α → Prop} {x y : Act α}, Operation .same env env' R x y →
    Follows S x y
  callable : ∀ c, env.registry.Offers c → ∀ template args named,
    Follows S (c (env.scope template) args named) (c (env'.scope template) args named)

theorem Environment.FollowedBy.mono {S S' : Store → Store → Prop} {env env' : Environment}
    (h : env.FollowedBy S env') (hS : ∀ s s', S s s' → S' s s') : env.FollowedBy S' env' where
  registry := h.registry
  operation op := (h.operation op).mono hS
  callable c hc template args named := (h.callable c hc template args named).mono hS

def Frame.within (frame : Frame) (env : Environment) (root : String) (blocks : Blocks) : Frame :=
  { frame with env, root, blocks }

/-- What code shows when it comes to a block is kept up with by what other code shows. -/
structure Calls.MatchBlocks (E : World → World → Prop) (P : Fault → Prop) (calls calls' : Calls)
    (frame frame' : Frame) : Prop where
  displayBlock : ∀ name,
    Sim E P (calls.displayBlock frame.template name frame.context frame.blocks true)
      (calls'.displayBlock frame'.template name frame'.context frame'.blocks true)
  displayParentBlock : ∀ name,
    Sim E P (calls.displayParentBlock frame.template name frame.context frame.blocks)
      (calls'.displayParentBlock frame'.template name frame'.context frame'.blocks)

/-- All that some code calls is kept up with by what other code calls. -/
structure Calls.Match (E : World → World → Prop) (P : Fault → Prop) (calls calls' : Calls)
    (frame frame' : Frame) : Prop extends Calls.MatchBlocks E P calls calls' frame frame' where
  display : ∀ t context, Sim E P (calls.display t context []) (calls'.display t context [])

/-! ## Expressions -/

namespace Frame

section Expressions

variable {S : Store → Store → Prop} {E : World → World → Prop} {P : Fault → Prop}
  {env' : Environment} {root' : String} {blocks' : Blocks} {calls calls' : Calls} (frame : Frame)

theorem follows_dictEntries [IsPreorder Store S] (r : Nat) :
    Respects S (Act.dictEntries r) :=
  Follows.get.bind fun _ => Follows.pure _

theorem follows_print [IsPreorder Store S] (v : Value) : Respects S (Act.print v) := by
  refine Follows.get.bind fun s => ?_
  dsimp only
  split
  · exact .throw _
  · exact .pure _

theorem leaveScope_follows (scope scope' : Scope) (context : Nat) (targets : List String) :
    Follows Step.Any (scope.leaveScope context targets) (scope'.leaveScope context targets) := by
  refine (Follows.any _).bind fun es => ?_
  split
  · exact Follows.any _
  · exact Follows.throw _

end Expressions
end Frame

/-! ## Environments -/

/-- All that a rendering asks of its environment, on the two sides. What operations do to the store
is in `S`; for statements that has to be `Step.Any`, so that worlds that match go on to match whatever
is done to the store. -/
structure Environment.Parallel (S : Store → Store → Prop) (E : World → World → Prop)
    (P : Fault → Prop) (env env' : Environment) : Prop where
  matching : Eval.Matching S E P
  follows : env.FollowedBy S env'
  loads : ∀ name, Tracks E (env.loadTemplate name) (env'.loadTemplate name)
  cached : ∀ {w v : World}, E w v → ∀ {unit : String} {t : Template},
    w.cache.lookup unit = some t → v.cache.lookup unit = some t

namespace Environment.Parallel

variable {S : Store → Store → Prop} {E : World → World → Prop} {P : Fault → Prop}
  {env env' : Environment}

theorem act (henv : env.Parallel Step.Any E P env') {α : Type} (x : Act α) :
    Sim E P (Eval.ofAct x) (Eval.ofAct x) :=
  henv.matching.act (Follows.any x)

variable (henv : env.Parallel S E P env')

include henv

theorem never : env.Parallel S E (fun _ => False) env' :=
  ⟨henv.matching.never, henv.follows, henv.loads, henv.cached⟩

theorem templateOf (unit : String) : Sim E P (Eval.templateOf unit) (Eval.templateOf unit) := by
  refine Sim.get_bind fun w v hwv => ?_
  cases hw : w.cache.lookup unit with
  | none => exact .of_fails (Eval.fails_fail _)
  | some t =>
    rw [henv.cached hwv hw]
    exact .pure t

theorem loading (name : String) {meet meet' : Fault → Eval (Option Template)}
    (hmeet : ∀ fault, Sim E P (meet fault) (meet' fault)) :
    Sim E P (tryCatch (return some (← Eval.ofTask (env.loadTemplate name))) meet)
      (tryCatch (return some (← Eval.ofTask (env'.loadTemplate name))) meet') := by
  have loading := (Eval.tracks_ofTask (henv.loads name)).andReturn some
  intro w v hwv t w' ok
  rcases Step.tryCatch_ok.1 ok with loaded | ⟨fault, w₁, failed, met⟩
  · obtain ⟨v', loaded', hwv'⟩ := loading.ok w v hwv t w' loaded
    exact Or.inl ⟨v', Step.tryCatch_ok.2 (Or.inl loaded'), hwv'⟩
  · obtain ⟨v₁, failed', hwv₁⟩ := loading.error w v hwv fault w₁ failed
    rcases hmeet fault w₁ v₁ hwv₁ t w' met with ⟨v', met', hwv'⟩ | ⟨e, v', met', he⟩
    · exact Or.inl ⟨v', Step.tryCatch_ok.2 (Or.inr ⟨fault, v₁, failed', met'⟩), hwv'⟩
    · exact Or.inr ⟨e, v', Step.tryCatch_error.2 ⟨fault, v₁, failed', met'⟩, he⟩

end Environment.Parallel

/-! ## Keeping up -/

section KeepingUp

variable {S : Store → Store → Prop} {E : World → World → Prop} {P : Fault → Prop} {α : Type}
  {R : α → α → Prop} {x y : Eval α}

def keepingUp (E : World → World → Prop) (P : Fault → Prop) : Correspondence where
  rel R x y := ∀ w v, E w v → ∀ a w', x w = .ok a w' →
    (∃ b v', y v = .ok b v' ∧ R a b ∧ E w' v') ∨ ∃ e v', y v = .error e v' ∧ P e
  pure {_ _ _ b} related w v hwv _ _ ok := by
    obtain ⟨rfl, rfl⟩ := Step.pure_ok.1 ok
    exact .inl ⟨b, v, rfl, related, hwv⟩
  bind hxy hfg w v hwv b w' ok := by
    obtain ⟨a, w₁, hx, hf⟩ := Step.bind_ok.1 ok
    rcases hxy w v hwv a w₁ hx with ⟨a', v₁, hy, related, hwv₁⟩ | ⟨e, v₁, hy, he⟩
    · rw [Step.bind_of_ok hy]
      exact hfg a a' related w₁ v₁ hwv₁ b w' hf
    · exact .inr ⟨e, v₁, Step.bind_error.2 (.inl hy), he⟩
  fail _ _ _ _ _ _ ok := absurd ok Step.throw_ok

theorem Step.Sim.related (h : Sim E P x y) (refl : ∀ a, R a a) : (keepingUp E P).rel R x y :=
  fun w v hwv a w' ok => (h w v hwv a w' ok).imp_left fun ⟨v', hy, hwv'⟩ =>
    ⟨a, v', hy, refl a, hwv'⟩

theorem sim_of_rel (h : (keepingUp E P).rel R x y) (eq : ∀ a b, R a b → a = b) : Sim E P x y :=
  fun w v hwv a w' ok => (h w v hwv a w' ok).imp_left fun ⟨b, v', hy, related, hwv'⟩ =>
    ⟨v', eq a b related ▸ hy, hwv'⟩

theorem sim_of_rel_eq (h : (keepingUp E P).rel Eq x y) : Sim E P x y := sim_of_rel h fun _ _ => id

variable {env env' : Environment}

theorem Upkeep.follows {x y : Act α} (h : Upkeep .same env env' R x y) : Follows Step.Any x y := by
  cases h with
  | dict same | setLoops same => cases same.eq; exact Follows.any _
  | copy paired | need paired | save paired | endRound paired => cases paired; exact Follows.any _
  | put paired _ same | enter paired _ same => cases paired; cases same.eq; exact Follows.any _
  | leaveScope paired template targets =>
    cases paired
    exact Frame.leaveScope_follows _ _ _ targets

theorem Environment.Parallel.serves (henv : env.Parallel S E P env') (root root' : String) :
    (keepingUp E P).Serves .same env env' root root' where
  registry := henv.follows.registry
  act h := (henv.matching.act (henv.follows.operation h)).related h.refl
  invoke {k} offered vs _ pairs _ args named t c _ blocks _ _ _ line := by
    cases Value.eq_of_allAlike args
    cases Value.eq_of_allNamedAlike named
    have called := henv.matching.never.act (henv.follows.callable k offered t.name vs pairs)
    exact (Sim.of_never ((called.bind fun _ => .pure _).rethrow (fun _ =>
      Frame.fails_raiseFrom (env.frame root t c blocks) line _ _) fun _ never => never.elim)).related
      .refl
  look h w v hwv := h w v (henv.matching.store hwv ▸ .refl w.store) w v hwv
  located h t _ d _ blocks' mark w v hwv a w' ok := by
    rcases h w v hwv a w' (Frame.located_ok.1 ok) with ⟨b, v', hy, found⟩ | ⟨e, v', hy, he⟩
    · exact .inl ⟨b, v', Frame.located_ok.2 hy, found⟩
    · exact .inr ⟨_, v', Step.tryCatch_error.2 ⟨e, v', hy, rfl⟩,
        henv.matching.placed (env'.frame root' t d blocks') mark he⟩
  templateOf _ := (henv.templateOf _).related fun _ => rfl
  loading name _ _ h := (henv.loading name fun fault => sim_of_rel_eq (h fault)).related fun _ => rfl

theorem Environment.Parallel.keeps (henv : env.Parallel Step.Any E P env') (root root' : String) :
    (keepingUp E P).Keeps .same env env' root root' where
  toServes := henv.serves root root'
  keep h := (henv.matching.act h.follows).related h.refl

theorem Calls.MatchBlocks.related {calls calls' : Calls} {frame frame' : Frame}
    (h : calls.MatchBlocks E P calls' frame frame') :
    (keepingUp E P).Blocks calls calls' frame frame' where
  displayBlock name := (h.displayBlock name).related fun _ => rfl
  displayParentBlock name := (h.displayParentBlock name).related fun _ => rfl

end KeepingUp

/-! ## Expressions and statements -/

namespace Frame

section Expressions

variable {S : Store → Store → Prop} {E : World → World → Prop} {P : Fault → Prop}
  {env' : Environment} {root' : String} {blocks' : Blocks} {calls calls' : Calls} (frame : Frame)
  (henv : frame.env.Parallel S E P env')

include henv

theorem truth_sim (v : Value) : Sim E P (truth v) (truth v) :=
  henv.matching.reading fun s => s.truth v

variable (hcalls : calls.MatchBlocks E P calls' frame (frame.within env' root' blocks'))

include hcalls

/-- **What an expression does on one side it does on the other.** -/
theorem value_sim (e : Expr) :
    Sim E P (value calls frame e) (value calls' (frame.within env' root' blocks') e) :=
  sim_of_rel ((henv.serves frame.root root').value rfl hcalls.related e) fun _ _ h => h.eq

theorem values_sim (es : List Expr) :
    Sim E P (values calls frame es) (values calls' (frame.within env' root' blocks') es) :=
  sim_of_rel ((henv.serves frame.root root').values rfl hcalls.related es) fun _ _ =>
    Value.eq_of_allAlike

theorem namedValues_sim (names : List String) (es : List Expr) :
    Sim E P (namedValues calls frame [] names es)
      (namedValues calls' (frame.within env' root' blocks') [] names es) :=
  sim_of_rel ((henv.serves frame.root root').namedValues rfl hcalls.related .nil names es) fun _ _ =>
    Value.eq_of_allNamedAlike

end Expressions

section Statements

variable {E : World → World → Prop} {P : Fault → Prop} {env' : Environment} {root' : String}
  {blocks' : Blocks} {calls calls' : Calls} (frame : Frame)
  (henv : frame.env.Parallel Step.Any E P env')

include henv

theorem rounds_sim (key val : String) {body body' : Eval String} (hbody : Sim E P body body')
    (pairs : List Value) :
    Sim E P (frame.rounds key val body pairs)
      ((frame.within env' root' blocks').rounds key val body' pairs) :=
  sim_of_rel_eq ((henv.keeps frame.root root').rounds rfl key val (hbody.related fun _ => rfl)
    (Value.allAlike_refl pairs))

theorem hadNone_sim (flags : LoopFlags) :
    Sim E P (frame.hadNone flags) ((frame.within env' root' blocks').hadNone flags) :=
  sim_of_rel_eq ((henv.keeps frame.root root').hadNone rfl flags)

/-- **What a statement does on one side it does on the other.** -/
theorem run_sim (hcalls : calls.Match E P calls' frame (frame.within env' root' blocks'))
    (code : Stmt) :
    Sim E P (run calls frame code) (run calls' (frame.within env' root' blocks') code) := by
  refine sim_of_rel_eq ((henv.keeps frame.root root').run rfl (fun t c d paired => ?_)
    hcalls.toMatchBlocks.related code)
  cases paired
  exact (hcalls.display t c).related fun _ => rfl

end Statements
end Frame

/-! ## Calls -/

/-- Whatever is called is kept up with by what is called in the same way on the other side. -/
abbrev Calls.Alike (E : World → World → Prop) (P : Fault → Prop) (calls calls' : Calls) : Prop :=
  (keepingUp E P).Called .same calls calls'

theorem Calls.Alike.match {E : World → World → Prop} {P : Fault → Prop} {calls calls' : Calls}
    (h : calls.Alike E P calls') (frame : Frame) (env' : Environment) (root' : String) :
    calls.Match E P calls' frame (frame.within env' root' frame.blocks) where
  display t _ := sim_of_rel_eq (h.display t rfl [])
  displayBlock name := sim_of_rel_eq (h.displayBlock _ name rfl _ true)
  displayParentBlock name := sim_of_rel_eq (h.displayParentBlock _ name rfl _)

namespace Render

section Calls

variable {E : World → World → Prop} {P : Fault → Prop} {env env' : Environment}
  {root root' : String} {calls calls' : Calls}

theorem noCalls_alike (calls : Calls) : noCalls.Alike E P calls where
  display _ _ _ _ _ := (Step.Sim.of_fails (Eval.fails_fail _)).related fun _ => rfl
  displayBlock _ _ _ _ _ _ _ := (Step.Sim.of_fails (Eval.fails_fail _)).related fun _ => rfl
  displayParentBlock _ _ _ _ _ _ := (Step.Sim.of_fails (Eval.fails_fail _)).related fun _ => rfl
  displayParent _ _ _ _ _ := (Step.Sim.of_fails (Eval.fails_fail _)).related fun _ => rfl

variable (henv : env.Parallel Step.Any E P env')

include henv

theorem copyOf_sim (context : Nat) : Sim E P (copyOf context) (copyOf context) :=
  sim_of_rel ((henv.keeps "" "").copyOf rfl) fun _ _ => id

/-- **What templates do on one side they do on the other**, however deep they are nested. The
other side may go deeper. -/
theorem callsAt_alike (root root' : String) {depth depth' : Nat} (hdepth : depth ≤ depth') :
    (callsAt env root depth).Alike E P (callsAt env' root' depth') := by
  induction depth generalizing depth' with
  | zero => exact noCalls_alike _
  | succ depth ih =>
    obtain ⟨depth', rfl⟩ : ∃ d, depth' = d + 1 := ⟨depth' - 1, by omega⟩
    exact (henv.keeps root root').next (ih (Nat.le_of_succ_le_succ hdepth))

end Calls
end Render

namespace Environment

variable {E : World → World → Prop} {P : Failure → Prop} {env env' : Environment}

theorem renderTemplate_sim (henv : env.Parallel Step.Any E (fun _ => False) env') (t : Template)
    (bindings : List (String × Plain)) :
    Sim E P (env.renderTemplate t bindings) (env'.renderTemplate t bindings) := by
  refine Sim.bind ?context fun v => ?shown
  case context =>
    intro w v hwv a w' ok
    obtain ⟨s, hs, rfl⟩ := Task.ofAct_ok.1 ok
    rw [henv.matching.store hwv] at hs
    exact Or.inl ⟨_, Task.ofAct_ok.2 ⟨s, hs, rfl⟩, henv.matching.put hwv trivial⟩
  case shown =>
    split
    · intro w v hwv out w' ok
      have displayed := sim_of_rel_eq ((Render.callsAt_alike henv t.unit t.unit
        (Nat.le_refl _)).display t rfl []) w v hwv out w' (Task.finish_ok.1 ok)
      obtain ⟨v', shown, hwv'⟩ := displayed.resolve_right fun ⟨_, _, _, never⟩ => never
      exact Or.inl ⟨v', Task.finish_ok.2 shown, hwv'⟩
    · exact .pure _

/-- **What a rendering does on one side it does on the other.** -/
theorem render_sim (henv : env.Parallel Step.Any E (fun _ => False) env') (name : String)
    (bindings : List (String × Plain)) :
    Sim E P (env.render name bindings) (env'.render name bindings) :=
  (Sim.of_tracks (henv.loads name)).bind fun t => renderTemplate_sim henv t bindings

end Environment
end Stencil
