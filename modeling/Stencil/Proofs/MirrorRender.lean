import Stencil.Proofs.Callables
import Stencil.Proofs.Loading
import Stencil.Proofs.MirrorContainer

/-!
# Renderings that mirror each other

A rendering does not depend on where containers stand: from worlds that are alike, with variables in
dicts that are paired, the same template shows the same or fails in the same way
(`Environment.Mirror.keeps`).

What worlds have in common besides their stores is left open. It is a relation `B` that tells enough
about the templates that have been made for loading to come to the same (`Environment.Mirror`).
-/

namespace Stencil

open List Act

variable {p : Pairing} {B : World → World → Prop}

/-! ## Operations -/

def Accord.mirroring (p : Pairing) : Accord p where
  rel := Act.Mirrors p
  pure := .pure
  bind := .bind
  rethrow _ h := h.tryCatch fun _ => .throw _
  look := .get_bind
  list := mirrors_newList
  dict := mirrors_addDict
  handle := mirrors_handle
  handleOfCopy := mirrors_handleOfCopy
  lax := False
  fails never := never.elim
  throw := .throw

theorem Container.Methods.Mirror.accord {methods : Container.Methods} (h : methods.Mirror p) :
    methods.Accord (.mirroring p) methods := by
  intro v w object key vs ws args access otherwise
  change Act.Mirrors p _ _ _
  have loose : Attribute.isLoose v = Attribute.isLoose w := by cases object <;> rfl
  have bound := h v w object key
  unfold Attribute.ofContainer
  rw [loose, isEmpty_of_rel args]
  generalize methods v key = m at bound ⊢
  generalize methods w key = n at bound ⊢
  cases bound with
  | none => exact .pure (.missing _)
  | some run =>
    refine .ite (((run vs ws args).bind fun _ _ value => .pure (.value value)).tryCatch fun f =>
      .ite (.throw f) (.pure (.failed f key))) ?_
    cases object with
    | set paired =>
      exact mirrors_newHandle.bind fun _ _ handles => .pure (.value (.method key handles paired))
    | _ => exact .pure (.missing _)

/-- A filter, function or test that does not tell stores apart that are alike. -/
def Callable.Mirror (p : Pairing) (c : Callable) : Prop :=
  ∀ (scope : Scope) {vs ws : List Value} {named named' : List (String × Value)},
    Forall₂ (Value.Alike p) vs ws → Forall₂ (Value.NamedAlike p) named named' →
      Act.Mirrors p (Option.Rel (Value.Alike p)) (c scope vs named) (c scope ws named')

theorem Callable.Accords.mirror {c : Callable} (h : c.Accords (.mirroring p)) : c.Mirror p :=
  fun scope => h scope scope (.refl scope)

/-- **The filters, functions and tests of the language do not tell stores apart that are alike.** -/
theorem Language.core_mirror : Extension.core.All (Callable.Mirror p) :=
  core_accords.mono fun _ h => h.mirror

/-! ## The variables of a loop -/

namespace Loop

open Act (Mirrors)

variable {a b : Nat} {v w x y : Value}

theorem mirrors_need (paired : p.dicts a b) (name : String) :
    Mirrors p (Value.Alike p) (need a name) (need b name) := by
  refine (mirrors_dictEntries paired).bind fun es fs entries => ?_
  have found := entries.get? (.text name)
  generalize es.get? (.text name) = here at found ⊢
  generalize fs.get? (.text name) = there at found ⊢
  cases found with
  | some related => exact .pure related
  | none => exact .throw _

theorem mirrors_put (paired : p.dicts a b) (name : String) (value : Value.Alike p v w) :
    Mirrors p Eq (put a name v) (put b name w) :=
  mirrors_store paired (.text name) value

theorem mirrors_item (h : Value.Alike p v w) (key : String) :
    Mirrors p (Value.Alike p) (item v key) (item w key) := by
  cases h with
  | dict paired => exact mirrors_need paired key
  | _ => exact .throw _

theorem mirrors_putItem (h : Value.Alike p v w) (key : String) (value : Value.Alike p x y) :
    Mirrors p Eq (putItem v key x) (putItem w key y) := by
  cases h with
  | dict paired => exact mirrors_put paired key value
  | _ => exact .throw _

theorem mirrors_stepped (h : Value.Alike p v w) (up : Bool) :
    Mirrors p (Value.Alike p) (stepped v up) (stepped w up) := by
  cases h with
  | int i => exact .pure (.int _)
  | float f => exact .pure (.float _)
  | _ => exact .throw _

theorem mirrors_bump (paired : p.dicts a b) (key : String) (up : Bool) :
    Mirrors p Eq (bump a key up) (bump b key up) :=
  (mirrors_need paired "loop").bind fun _ _ loop => (mirrors_item loop key).bind fun _ _ item =>
    (mirrors_stepped item up).bind fun _ _ next => mirrors_putItem loop key next

theorem mirrors_save (paired : p.dicts a b) : Mirrors p Eq (save a) (save b) :=
  (mirrors_dictEntries paired).bind fun _ _ entries =>
    (mirrors_addDict (Table.filled_alike entries)).bind fun _ _ copy => mirrors_put paired _ copy

theorem mirrors_addCount (paired : p.dicts a b) : Mirrors p Eq (addCount a) (addCount b) := by
  refine .get_bind fun s t stores => (mirrors_need paired "_seq").bind fun _ _ seq => ?_
  dsimp only
  rw [(stores.pairs seq).length_eq]
  exact (mirrors_need paired "loop").bind fun _ _ loop =>
    (mirrors_putItem loop _ (.int _)).bind fun _ _ _ =>
      (mirrors_putItem loop _ (.int _)).bind fun _ _ _ =>
        (mirrors_putItem loop _ (.int _)).bind fun _ _ _ => mirrors_putItem loop _ (.bool _)

theorem mirrors_start (paired : p.dicts a b) (flags : LoopFlags) :
    Mirrors p Eq (start a flags) (start b flags) := by
  refine (mirrors_need paired "_parent").bind fun _ _ parent => ?_
  have account : Entries.Alike p
      [(.text "parent", _), (.text "index0", .int 0), (.text "index", .int 1),
        (.text "first", .bool true)]
      [(.text "parent", _), (.text "index0", .int 0), (.text "index", .int 1),
        (.text "first", .bool true)] :=
    .cons ⟨.text _, parent⟩ (.cons ⟨.text _, .int 0⟩ (.cons ⟨.text _, .int 1⟩
      (.cons ⟨.text _, .bool true⟩ .nil)))
  exact (mirrors_newDict account).bind fun _ _ loop => (mirrors_put paired _ loop).bind
    fun _ _ _ => .ite (mirrors_addCount paired) (.pure rfl)

theorem mirrors_enter (paired : p.dicts a b) (flags : LoopFlags) (seq : Value.Alike p v w) :
    Mirrors p Eq (enter a flags v) (enter b flags w) := by
  refine (mirrors_iterate seq).bind fun _ _ pairs => (mirrors_put paired _ pairs).bind
    fun _ _ _ => ?_
  have started : Mirrors p Eq (if flags.withLoop then start a flags else pure ())
      (if flags.withLoop then start b flags else pure ()) :=
    .ite (mirrors_start paired flags) (.pure rfl)
  exact .ite ((mirrors_put paired _ (.bool false)).bind fun _ _ _ => started) started

theorem mirrors_countDown (paired : p.dicts a b) : Mirrors p Eq (countDown a) (countDown b) :=
  (mirrors_bump paired _ _).bind fun _ _ _ => (mirrors_bump paired _ _).bind fun _ _ _ =>
    (mirrors_need paired "loop").bind fun _ _ loop => (mirrors_item loop _).bind fun _ _ left =>
      Step.Mirrors.bind_eq (accords_compare (A := .mirroring p) .eq left (.int 0)) fun _ =>
        mirrors_putItem loop _ (.bool _)

theorem mirrors_count (paired : p.dicts a b) (flags : LoopFlags) :
    Mirrors p Eq (count a flags) (count b flags) :=
  (mirrors_bump paired _ _).bind fun _ _ _ => (mirrors_bump paired _ _).bind fun _ _ _ =>
    (mirrors_need paired "loop").bind fun _ _ loop =>
      (mirrors_putItem loop _ (.bool false)).bind fun _ _ _ =>
        .ite (mirrors_countDown paired) (.pure rfl)

theorem mirrors_endRound (paired : p.dicts a b) (flags : LoopFlags) :
    Mirrors p Eq (endRound a flags) (endRound b flags) := by
  have counted : Mirrors p Eq (if flags.withLoop then count a flags else pure ())
      (if flags.withLoop then count b flags else pure ()) :=
    .ite (mirrors_count paired flags) (.pure rfl)
  exact .ite ((mirrors_put paired _ (.bool true)).bind fun _ _ _ => counted) counted

theorem mirrors_setLoops (h : Value.Alike p v w) (change : Nat → Nat) :
    Mirrors p Eq (setLoops v change) (setLoops w change) := by
  cases h with
  | list paired =>
    refine .change fun s t stores => stores.setListCell paired ?_
    have cells := stores.listCell paired
    exact ⟨cells.items, congrArg change cells.loops⟩
  | _ => exact .pure rfl

variable {s t : Store} {es fs : Entries}

theorem kept_alike (stores : Store.Alike p s t) {gs hs : Entries} (parents : Entries.Alike p es fs)
    (now : Entries.Alike p gs hs) : Forall₂ (Value.NamedAlike p) (kept s es gs) (kept t fs hs) := by
  refine rel_map (fun e f pair => ?_) (rel_filter (fun e f pair => ?_) now)
  · obtain ⟨k, v⟩ := e
    obtain ⟨l, w⟩ := f
    exact ⟨congrArg Datum.print (stores.view pair.1), pair.2⟩
  · obtain ⟨k, v⟩ := e
    obtain ⟨l, w⟩ := f
    exact iff_of_eq (congrArg (· = true) (isSome_of_rel (parents.get? pair.1)))

theorem restored_alike (stores : Store.Alike p s t) {keep keep' : List (String × Value)}
    (hkeep : Forall₂ (Value.NamedAlike p) keep keep') (parents : Entries.Alike p es fs) :
    Entries.Alike p (restored s keep es) (restored t keep' fs) := by
  refine rel_map (fun e f pair => ?_) parents
  obtain ⟨k, v⟩ := e
  obtain ⟨l, w⟩ := f
  have shown : (s.view k).print = (t.view l).print := congrArg Datum.print (stores.view pair.1)
  refine ⟨pair.1, ?_⟩
  dsimp only
  rw [shown]
  exact getD_of_rel (lookup_rel (rel_reverse hkeep) _) pair.2

theorem erased_alike (names : List String) (h : Entries.Alike p es fs) :
    Entries.Alike p (names.foldl (fun es name => Entries.erase (.text name) es) es)
      (names.foldl (fun es name => Entries.erase (.text name) es) fs) := by
  induction names generalizing es fs with
  | nil => exact h
  | cons name names ih => exact ih (h.erase (.text name))

end Loop

theorem Scope.mirrors_leaveScope (scope : Scope) {a b : Nat} (paired : p.dicts a b)
    (targets : List String) :
    Act.Mirrors p Eq (scope.leaveScope a targets) (scope.leaveScope b targets) := by
  have entries := mirrors_dictEntries paired
  refine entries.bind fun es fs hes => ?_
  have found := hes.get? (.text "_parent")
  generalize es.get? (.text "_parent") = here at found ⊢
  generalize fs.get? (.text "_parent") = there at found ⊢
  cases found with
  | none => exact .throw _
  | some related =>
    cases related with
    | dict parents =>
      have parentEntries := mirrors_dictEntries parents
      refine entries.bind fun es fs hes => ?_
      have now := Loop.erased_alike (Loop.ownNames targets) hes
      refine (mirrors_putDict paired now).bind fun _ _ _ => .get_bind fun s t stores =>
        parentEntries.bind fun es' fs' hparent => ?_
      have keep := Loop.kept_alike stores hparent now
      exact (mirrors_putDict paired .nil).bind fun _ _ _ => .get_bind fun s' t' stores' =>
        parentEntries.bind fun es'' fs'' hparent' =>
          mirrors_putDict paired (Loop.restored_alike stores' keep hparent')
    | _ => exact .throw _

/-! ## Steps of a rendering -/

structure World.Alike (p : Pairing) (B : World → World → Prop) (w v : World) : Prop where
  stores : Store.Alike p w.store v.store
  books : B w v

structure Environment.Mirror (p : Pairing) (B : World → World → Prop) (env : Environment) : Prop where
  host : env.host.Fits p
  methods : env.methods.Mirror p
  callables : ∀ c, env.registry.Offers c → c.Mirror p
  /-- What worlds have in common is not in their stores. -/
  apart : ∀ {w v : World} {s t : Store}, B w v → B { w with store := s } { v with store := t }
  /-- Templates that may be met as values are the same. -/
  known : ∀ {w v : World} {unit : String}, B w v → p.templates unit →
    w.cache.lookup unit = v.cache.lookup unit
  loads : ∀ name, Step.Mirrors (World.Alike p B) Eq (env.loadTemplate name) (env.loadTemplate name)

namespace Eval

/-- From worlds that are alike, two steps come to outcomes that are alike. -/
abbrev Mirrors {α β : Type} (p : Pairing) (B : World → World → Prop) (R : α → β → Prop) (x : Eval α)
    (y : Eval β) : Prop :=
  Step.Mirrors (World.Alike p B) R x y

variable {α β : Type} {R : α → β → Prop} {env : Environment}

theorem mirrors_ofAct (henv : env.Mirror p B) {x : Act α} {y : Act β} (h : Act.Mirrors p R x y) :
    Mirrors p B R (ofAct x) (ofAct y) := by
  intro w v worlds
  unfold ofAct
  rcases (h w.store v.store worlds.stores).cases with ⟨a, b, s, t, hx, hy, related, stores⟩ |
    ⟨e, s, t, hx, hy, stores⟩
  · rw [hx, hy]
    exact .ok related ⟨stores, henv.apart worlds.books⟩
  · rw [hx, hy]
    exact .error _ ⟨stores, henv.apart worlds.books⟩

theorem mirrors_ofTask {x y : Task α} (h : Step.Mirrors (World.Alike p B) Eq x y) :
    Mirrors p B Eq (ofTask x) (ofTask y) := by
  intro w v worlds
  unfold ofTask
  rcases (h w v worlds).cases with ⟨a, b, w', v', hx, hy, related, worlds'⟩ |
    ⟨e, w', v', hx, hy, worlds'⟩
  · rw [hx, hy]
    exact .ok related worlds'
  · rw [hx, hy]
    exact .error _ worlds'

theorem mirrors_templateOf (henv : env.Mirror p B) {unit : String} (met : p.templates unit) :
    Mirrors p B Eq (templateOf unit) (templateOf unit) := by
  refine .get_bind fun w v worlds => ?_
  rw [henv.known worlds.books met]
  cases v.cache.lookup unit with
  | some t => exact .pure rfl
  | none => exact .throw _

end Eval

variable {α : Type} {R : α → α → Prop} {x y : Act α} {env : Environment}

theorem Upkeep.mirrors (h : Upkeep p env env R x y) : Act.Mirrors p R x y := by
  cases h with
  | dict entries => exact mirrors_newDict entries
  | copy paired => exact (mirrors_dictEntries paired).bind fun _ _ es => mirrors_newDict es
  | need paired name => exact Loop.mirrors_need paired name
  | put paired name value => exact Loop.mirrors_put paired name value
  | save paired => exact Loop.mirrors_save paired
  | enter paired flags seq => exact Loop.mirrors_enter paired flags seq
  | setLoops seq change => exact Loop.mirrors_setLoops seq change
  | endRound paired flags => exact Loop.mirrors_endRound paired flags
  | leaveScope paired template targets =>
    exact (env.scope template).mirrors_leaveScope paired targets

def mirroring (p : Pairing) (B : World → World → Prop) : Correspondence where
  rel := Eval.Mirrors p B
  pure := .pure
  bind := .bind
  fail _ := .throw _

/-- **Renderings from worlds that are alike mirror each other.** -/
theorem Environment.Mirror.keeps (henv : env.Mirror p B) (root : String) :
    (mirroring p B).Keeps p env env root root where
  registry := rfl
  act h := Eval.mirrors_ofAct henv (h.accords (fun _ => .refl _) henv.host henv.methods.accord)
  keep h := Eval.mirrors_ofAct henv h.mirrors
  invoke {k} offered _ _ _ _ args named t _ d _ blocks' _ _ line :=
    ((Eval.mirrors_ofAct henv (henv.callables k offered _ args named)).bind fun _ _ result =>
      .pure (getD_of_rel result .null)).tryCatch fun _ =>
        (mirroring p B).raiseFrom _ (env.frame root t d blocks') rfl line _ _
  look h := .get_bind fun w v worlds => h w v worlds.stores
  located h _ _ _ _ _ _ := h.tryCatch fun _ => .throw _
  templateOf := Eval.mirrors_templateOf henv
  loading name _ _ h :=
    ((Eval.mirrors_ofTask (henv.loads name)).bind_eq fun _ => .pure rfl).tryCatch h

namespace Render

open Eval (Mirrors)

theorem mirrors_finish {x y : Eval String} (report : Fault → Failure) (h : Mirrors p B Eq x y) :
    Step.Mirrors (World.Alike p B) Eq (finish report x) (finish report y) := by
  intro w v worlds
  unfold finish
  rcases (h w v worlds).cases with ⟨a, b, w', v', hx, hy, related, worlds'⟩ |
    ⟨e, w', v', hx, hy, worlds'⟩
  · rw [hx, hy]
    exact .ok related worlds'
  · rw [hx, hy]
    exact .error _ worlds'

end Render

namespace Environment

variable {env : Environment} (henv : env.Mirror p B)

include henv

theorem mirrors_actInTask {α β : Type} {R : α → β → Prop} {x : Act α} {y : Act β}
    (h : Act.Mirrors p R x y) :
    Step.Mirrors (World.Alike p B) R (Task.ofAct x) (Task.ofAct y) := by
  intro w v worlds
  unfold Task.ofAct
  rcases (h w.store v.store worlds.stores).cases with ⟨a, b, s, t, hx, hy, related, stores⟩ |
    ⟨e, s, t, hx, hy, stores⟩
  · rw [hx, hy]
    exact .ok related ⟨stores, henv.apart worlds.books⟩
  · rw [hx, hy]
    exact .error _ ⟨stores, henv.apart worlds.books⟩

theorem mirrors_render (name : String) {bindings : List (String × Plain)}
    (fits : (Plain.ofEntries bindings).Fits p) :
    Step.Mirrors (World.Alike p B) Eq (env.render name bindings) (env.render name bindings) := by
  refine (henv.loads name).bind_eq fun t => ?_
  refine (mirrors_actInTask henv (Plain.accords_toValue (A := .mirroring p) fits)).bind fun v w alike => ?_
  cases alike with
  | dict paired =>
    exact Render.mirrors_finish _
      (((henv.keeps t.unit).callsAt Render.depth).display t paired [])
  | _ => exact .pure rfl

end Environment

/-! ## Caches that agree -/

namespace Environment

variable {env : Environment} {name source : String} {w v : World}

def found (env : Environment) (w : World) (name source : String) : Except Failure Template :=
  match w.cache.lookup (unitName name source) with
  | some t => .ok t
  | none => env.build source name

theorem load_of_found {t : Template} (h : env.found w name source = .ok t) :
    ∃ w', env.load name source w = .ok t w' ∧ w'.store = w.store ∧
      ∀ unit, w'.cache.lookup unit =
        if unit = unitName name source then some t else w.cache.lookup unit := by
  unfold found at h
  cases there : w.cache.lookup (unitName name source) with
  | some t' =>
    rw [there] at h
    cases h
    refine ⟨_, load_ok.2 (Or.inl ⟨there, rfl⟩), rfl, fun unit => ?_⟩
    split
    · next same => rw [same, there]
    · rfl
  | none =>
    rw [there] at h
    refine ⟨_, load_ok.2 (Or.inr ⟨there, h, rfl⟩), rfl, fun unit => ?_⟩
    rw [lookup_cons, unit_of_build h]
    split
    · next same => rw [if_pos (beq_iff_eq.1 same)]
    · next other => rw [if_neg (beq_eq_false_iff_ne.1 other)]

theorem load_of_not_found {f : Failure} (h : env.found w name source = .error f) :
    env.load name source w = .error f { w with misses := w.misses + 1 } := by
  unfold found at h
  cases there : w.cache.lookup (unitName name source) with
  | some t' =>
    rw [there] at h
    cases h
  | none =>
    rw [there] at h
    exact load_error.2 ⟨there, h, rfl⟩

/-- Two worlds from which loading comes to the same, and which have some templates in common. -/
structure Agree (env : Environment) (templates : String → Prop) (w v : World) : Prop where
  known : ∀ unit, templates unit → w.cache.lookup unit = v.cache.lookup unit
  found : ∀ name source, env.source name = .ok source →
    env.found w name source = env.found v name source

theorem found_congr {w' : World}
    (h : w'.cache.lookup (unitName name source) = w.cache.lookup (unitName name source)) :
    env.found w' name source = env.found w name source := by
  unfold found
  rw [h]

theorem found_of_lookup {t : Template} (h : w.cache.lookup (unitName name source) = some t) :
    env.found w name source = .ok t := by
  unfold found
  rw [h]

theorem Agree.learned {templates : String → Prop} (h : env.Agree templates w v) {w' v' : World}
    {unit : String} {t : Template}
    (hw : ∀ u, w'.cache.lookup u = if u = unit then some t else w.cache.lookup u)
    (hv : ∀ u, v'.cache.lookup u = if u = unit then some t else v.cache.lookup u) :
    env.Agree templates w' v' where
  known u hu := by
    rw [hw, hv, h.known u hu]
  found name source hsource := by
    by_cases same : unitName name source = unit
    · rw [found_of_lookup ((hw _).trans (if_pos same)), found_of_lookup ((hv _).trans (if_pos same))]
    · rw [found_congr ((hw _).trans (if_neg same)), found_congr ((hv _).trans (if_neg same))]
      exact h.found name source hsource

theorem mirror_of_agree (host : env.host.Fits p) (methods : env.methods.Mirror p)
    (callables : ∀ c, env.registry.Offers c → c.Mirror p) : env.Mirror p (env.Agree p.templates) where
  host := host
  methods := methods
  callables := callables
  apart h := ⟨h.known, h.found⟩
  known h met := h.known _ met
  loads name := by
    intro w v worlds
    unfold loadTemplate
    cases hsource : env.source name with
    | error f => exact .error f worlds
    | ok source =>
      have same := worlds.books.found name source hsource
      cases here : env.found w name source with
      | ok t =>
        obtain ⟨w', loaded, store, learned⟩ := load_of_found here
        obtain ⟨v', loaded', store', learned'⟩ := load_of_found (same ▸ here)
        simp only [loaded, loaded']
        refine .ok rfl ⟨?_, worlds.books.learned learned learned'⟩
        rw [store, store']
        exact worlds.stores
      | error f =>
        simp only [load_of_not_found here, load_of_not_found (same ▸ here)]
        exact .error f ⟨worlds.stores, worlds.books.known, worlds.books.found⟩

end Environment
end Stencil
