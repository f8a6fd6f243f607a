import Stencil.Proofs.Correspondence
import Stencil.Proofs.Loading

/-!
# The loads of a rendering

All that a rendering does with the cache is to load templates. `Performs env x w loads` says that
step `x`, taken in world `w`, performs just these loads in this order: it is put together from loads
and from steps that work on the store alone. Nothing is said there of the cache and the counts; what
becomes of them is worked out from the loads (`Performs.books`), each of which is counted once.
-/

namespace Stencil

open List Environment

def Step.final {ε σ α : Type} : EStateM.Result ε σ α → σ
  | .ok _ s => s
  | .error _ s => s

/-- What is asked of the cache: a template of some name and source. -/
structure Load where
  name : String
  source : String
  deriving DecidableEq

structure Books where
  cache : List (String × Template)
  hits : Nat
  misses : Nat

def World.books (w : World) : Books := ⟨w.cache, w.hits, w.misses⟩

/-! ## Loads one by one -/

namespace Load

def unit (l : Load) : String := unitName l.name l.source

def made (env : Environment) (l : Load) : Except Failure Template := env.build l.source l.name

def enter (env : Environment) (b : Books) (l : Load) : Books :=
  if (b.cache.lookup l.unit).isSome then { b with hits := b.hits + 1 }
  else match l.made env with
    | .ok t => { b with misses := b.misses + 1, cache := (l.unit, t) :: b.cache }
    | .error _ => { b with misses := b.misses + 1 }

def enterAll (env : Environment) (b : Books) (loads : List Load) : Books := loads.foldl (enter env) b

variable {env : Environment}

theorem books_load (l : Load) (w : World) :
    (Step.final (env.load l.name l.source w)).books = l.enter env w.books := by
  unfold enter
  rw [load_eq]
  change _ = if (w.cache.lookup (unitName l.name l.source)).isSome then _ else _
  cases w.cache.lookup (unitName l.name l.source) with
  | some t => rfl
  | none =>
    unfold made
    cases built : env.build l.source l.name with
    | ok t =>
      dsimp only [Step.final, World.books]
      rw [unit_of_build built]
      rfl
    | error f => rfl

end Load

/-! ## What a step performs -/

/-- A step performs some loads, and apart from them reads the world and works on the store. -/
inductive Performs (env : Environment) :
    {ε α : Type} → EStateM ε World α → World → List Load → Prop
  | pure {ε α : Type} (a : α) (w : World) : Performs env (Pure.pure a : EStateM ε World α) w []
  | throw {ε α : Type} (e : ε) (w : World) :
      Performs env (MonadExcept.throw e : EStateM ε World α) w []
  | get {ε : Type} (w : World) : Performs env (MonadState.get : EStateM ε World World) w []
  | act {α : Type} (x : Act α) (w : World) : Performs env (Eval.ofAct x) w []
  | actInTask {α : Type} (x : Act α) (w : World) : Performs env (Task.ofAct x) w []
  | load (l : Load) (w : World) : Performs env (env.load l.name l.source) w [l]
  | bind {ε α β : Type} {x : EStateM ε World α} {f : α → EStateM ε World β} {w w₁ : World} {a : α}
      {first second : List Load} (ok : x w = .ok a w₁) (hx : Performs env x w first)
      (hf : Performs env (f a) w₁ second) : Performs env (x >>= f) w (first ++ second)
  | bind_failed {ε α β : Type} {x : EStateM ε World α} {f : α → EStateM ε World β} {w w₁ : World}
      {e : ε} {loads : List Load} (failed : x w = .error e w₁) (hx : Performs env x w loads) :
      Performs env (x >>= f) w loads
  | caught {ε α : Type} {x : EStateM ε World α} {h : ε → EStateM ε World α} {w w₁ : World} {e : ε}
      {first second : List Load} (failed : x w = .error e w₁) (hx : Performs env x w first)
      (hh : Performs env (h e) w₁ second) : Performs env (tryCatch x h) w (first ++ second)
  | uncaught {ε α : Type} {x : EStateM ε World α} {h : ε → EStateM ε World α} {w w₁ : World} {a : α}
      {loads : List Load} (ok : x w = .ok a w₁) (hx : Performs env x w loads) :
      Performs env (tryCatch x h) w loads
  | task {α : Type} {x : Task α} {w : World} {loads : List Load} (hx : Performs env x w loads) :
      Performs env (Eval.ofTask x) w loads
  | finished {α : Type} {x : Eval α} {w : World} {loads : List Load} (report : Fault → Failure)
      (hx : Performs env x w loads) : Performs env (Render.finish report x) w loads

open Step (final bind_ok bind_error tryCatch_of_ok tryCatch_of_error)

variable {env : Environment}

theorem Performs.books {ε α : Type} {x : EStateM ε World α} {w : World} {loads : List Load}
    (h : Performs env x w loads) : (final (x w)).books = Load.enterAll env w.books loads := by
  induction h with
  | pure | throw | get => rfl
  | act x w =>
    unfold Eval.ofAct
    cases x w.store with
    | ok | error => rfl
  | actInTask x w =>
    unfold Task.ofAct
    cases x w.store with
    | ok | error => rfl
  | load l w => exact l.books_load w
  -- the books of the second part are opened where those of the first were closed
  | @bind _ _ _ x f w w₁ a first second ok _ _ hx hf =>
    rw [ok] at hx
    rw [Load.enterAll, foldl_append]
    change _ = Load.enterAll env (Load.enterAll env w.books first) second
    rw [← hx, Step.bind_of_ok ok, hf]
    rfl
  | bind_failed failed _ hx =>
    rw [failed] at hx
    rw [bind_error.2 (Or.inl failed)]
    exact hx
  | @caught _ _ x h w w₁ e first second failed _ _ hx hh =>
    rw [failed] at hx
    rw [Load.enterAll, foldl_append]
    change _ = Load.enterAll env (Load.enterAll env w.books first) second
    rw [← hx, tryCatch_of_error failed, hh]
    rfl
  | uncaught ok _ hx =>
    rw [ok] at hx
    rw [tryCatch_of_ok ok]
    exact hx
  | @task α x w loads _ hx =>
    rw [← hx]
    unfold Eval.ofTask
    cases x w with
    | ok | error => rfl
  | @finished α x w loads report _ hx =>
    rw [← hx]
    unfold Render.finish
    cases x w with
    | ok | error => rfl

def Traced (env : Environment) {ε α : Type} (x : EStateM ε World α) : Prop :=
  ∀ w, ∃ loads, (∀ l ∈ loads, env.source l.name = .ok l.source) ∧ Performs env x w loads

namespace Traced

variable {ε α β : Type} {x : EStateM ε World α}

theorem pure (a : α) : Traced env (Pure.pure a : EStateM ε World α) :=
  fun w => ⟨[], forall_mem_nil _, .pure a w⟩

theorem throw (e : ε) : Traced env (MonadExcept.throw e : EStateM ε World α) :=
  fun w => ⟨[], forall_mem_nil _, .throw e w⟩

theorem bind {f : α → EStateM ε World β} (hx : Traced env x)
    (hf : ∀ w a w', x w = .ok a w' → Traced env (f a)) : Traced env (x >>= f) := by
  intro w
  obtain ⟨first, there, performs⟩ := hx w
  cases done : x w with
  | ok a w₁ =>
    obtain ⟨second, there', performs'⟩ := hf w a w₁ done w₁
    exact ⟨first ++ second, forall_mem_append.2 ⟨there, there'⟩, .bind done performs performs'⟩
  | error e w₁ => exact ⟨first, there, .bind_failed done performs⟩

theorem get_bind {f : World → EStateM ε World β} (hf : ∀ w, Traced env (f w)) :
    Traced env (get >>= f) :=
  bind (fun w => ⟨[], forall_mem_nil _, .get w⟩) fun _ w _ _ => hf w

theorem tryCatch {h : ε → EStateM ε World α} (hx : Traced env x) (hh : ∀ e, Traced env (h e)) :
    Traced env (MonadExcept.tryCatch x h) := by
  intro w
  obtain ⟨first, there, performs⟩ := hx w
  cases done : x w with
  | ok a w₁ => exact ⟨first, there, .uncaught done performs⟩
  | error e w₁ =>
    obtain ⟨second, there', performs'⟩ := hh e w₁
    exact ⟨first ++ second, forall_mem_append.2 ⟨there, there'⟩, .caught done performs performs'⟩

theorem ite {c : Prop} [Decidable c] {y : EStateM ε World α} (hx : Traced env x)
    (hy : Traced env y) : Traced env (if c then x else y) := by
  split
  · exact hx
  · exact hy

theorem ofTask {x : Task α} (hx : Traced env x) : Traced env (Eval.ofTask x) := fun w =>
  let ⟨loads, there, performs⟩ := hx w
  ⟨loads, there, .task performs⟩

theorem finish {x : Eval α} (report : Fault → Failure) (hx : Traced env x) :
    Traced env (Render.finish report x) := fun w =>
  let ⟨loads, there, performs⟩ := hx w
  ⟨loads, there, .finished report performs⟩

theorem ofAct (x : Act α) : Traced env (Eval.ofAct x) := fun w => ⟨[], forall_mem_nil _, .act x w⟩

theorem actInTask (x : Act α) : Traced env (Task.ofAct x) :=
  fun w => ⟨[], forall_mem_nil _, .actInTask x w⟩

theorem loadTemplate (name : String) : Traced env (env.loadTemplate name) := by
  intro w
  unfold Environment.loadTemplate
  cases given : env.source name with
  | ok source => exact ⟨[⟨name, source⟩], forall_mem_singleton.2 given, .load ⟨name, source⟩ w⟩
  | error f => exact throw f w

theorem templateOf (unit : String) : Traced env (Eval.templateOf unit) := by
  refine get_bind fun w => ?_
  split
  · exact pure _
  · exact throw _

end Traced

/-! ## Renderings -/

def tracing (env : Environment) : Correspondence where
  rel R x _ := Traced env x ∧ ∀ w a w', x w = .ok a w' → ∃ b, R a b
  pure {_ R a b} related := by
    refine ⟨.pure a, fun w a' w' ok => ?_⟩
    obtain ⟨rfl, -⟩ := Step.pure_ok.1 ok
    exact ⟨b, related⟩
  bind {_ _ _ _ x _ f _} hx hf := by
    have next : ∀ w a w', x w = .ok a w' → _ := fun w a w' ok =>
      let ⟨b, related⟩ := hx.2 w a w' ok
      hf a b related
    refine ⟨hx.1.bind fun w a w' ok => (next w a w' ok).1, fun w b w' ok => ?_⟩
    obtain ⟨a, w₁, first, rest⟩ := bind_ok.1 ok
    exact (next w a w₁ first).2 w₁ b w' rest
  fail _ := ⟨.throw _, fun _ _ _ ok => absurd ok Step.throw_ok⟩

theorem traced_refl {α : Type} {R : α → α → Prop} {x : Eval α} (y : Eval α) (refl : ∀ a, R a a)
    (hx : Traced env x) : (tracing env).rel R x y :=
  ⟨hx, fun _ a _ _ => ⟨a, refl a⟩⟩

/-- **A rendering performs loads of templates that there are**, and otherwise works on the store. -/
theorem Environment.traces (env : Environment) (root : String) :
    (tracing env).Keeps .same env env root root where
  registry := rfl
  act h := traced_refl _ h.refl (.ofAct _)
  keep h := traced_refl _ h.refl (.ofAct _)
  invoke _ _ _ _ _ _ _ t _ d _ blocks' _ _ line := by
    refine traced_refl _ Value.Alike.refl (((Traced.ofAct _).bind fun _ _ _ _ => .pure _).tryCatch
      fun _ => ?_)
    exact .ite (.throw _) (.ite (.throw _) (.throw _))
  look {_ R f g} h := by
    have each := fun w : World => h w w (.refl w.store)
    exact ⟨.get_bind fun w => (each w).1, fun w a w' ok => (each w).2 w a w' ok⟩
  located h _ _ _ _ _ _ :=
    ⟨h.1.tryCatch fun _ => .throw _, fun w a w' ok => h.2 w a w' (Frame.located_ok.1 ok)⟩
  templateOf _ := traced_refl _ (fun _ => rfl) (.templateOf _)
  loading name _ _ h := traced_refl _ (fun _ => rfl)
    (((Traced.loadTemplate name).ofTask.bind fun _ _ _ _ => .pure _).tryCatch fun e => (h e).1)

end Stencil
