import Stencil.Proofs.Likeness
import Stencil.Proofs.Registry
import Stencil.Proofs.Step

/-!
# Renderings that correspond

There are many ways to compare two renderings: by what they show, by how they fail, by what they do to
the world. For all of them it is enough to compare the operations that renderings are made of. What
is in between, be it expressions, statements or calls, puts steps together in just one way, so
whatever goes through `pure` and `>>=` goes through the language.

* `Correspondence` is a relation between steps, for each relation between their results.
* `Operation` and `Upkeep` are the steps on the store that code takes.
* `Correspondence.Serves` and `Correspondence.Keeps` say that it holds of the operations of two
  environments.
* Then it holds of **expressions** (`Serves.value`), **statements** (`Keeps.run`) and **calls**
  (`Keeps.callsAt`).

The variables of the two sides may stand in different dicts, as a `Pairing` tells.
-/

namespace Stencil

open Render
open List (Forall₂)

/-- A relation between the steps of two renderings, for each relation between their results. -/
structure Correspondence where
  rel : {α : Type} → (α → α → Prop) → Eval α → Eval α → Prop
  pure : ∀ {α : Type} {R : α → α → Prop} {a b : α}, R a b → rel R (pure a) (pure b)
  bind : ∀ {α β : Type} {R : α → α → Prop} {S : β → β → Prop} {x y : Eval α} {f g : α → Eval β},
    rel R x y → (∀ a b, R a b → rel S (f a) (g b)) → rel S (x >>= f) (y >>= g)
  fail : ∀ {α : Type} {R : α → α → Prop} (f : Failure), rel R (Eval.fail f) (Eval.fail f)

namespace Correspondence

variable (L : Correspondence) {α β : Type} {R : α → α → Prop} {x x' y y' : Eval α}

theorem ite {c : Prop} [Decidable c] (h : L.rel R x y) (h' : L.rel R x' y') :
    L.rel R (if c then x else x') (if c then y else y') := by
  split
  · exact h
  · exact h'

theorem bind_eq {S : β → β → Prop} {f g : α → Eval β} (h : L.rel Eq x y)
    (hfg : ∀ a, L.rel S (f a) (g a)) : L.rel S (x >>= f) (y >>= g) :=
  L.bind h fun a _ same => same ▸ hfg a

theorem raiseFrom (frame frame' : Frame) (same : frame'.template = frame.template) (line : Int)
    (reason : Raised) (f : Failure) :
    L.rel R (frame.raiseFrom line reason f) (frame'.raiseFrom line reason f) := by
  unfold Frame.raiseFrom Frame.raise
  rw [same]
  exact L.ite (L.fail _) (L.ite (L.fail _) (L.fail _))

end Correspondence

/-! ## What is compared -/

section Operations

variable (p : Pairing) (env env' : Environment)

/-- The steps on the store that expressions take, with results that are alike. -/
inductive Operation : {α : Type} → (α → α → Prop) → Act α → Act α → Prop
  | entries {c d} (paired : p.dicts c d) :
    Operation (Entries.Alike p) (Act.dictEntries c) (Act.dictEntries d)
  | print {v w} (value : Value.Alike p v w) : Operation Eq (Act.print v) (Act.print w)
  | list {vs ws} (items : Forall₂ (Value.Alike p) vs ws) :
    Operation (Value.Alike p) (Act.newList vs) (Act.newList ws)
  | hash {vs ws} (parts : Forall₂ (Value.Alike p) vs ws) :
    Operation (Value.Alike p) (Frame.hash vs) (Frame.hash ws)
  | getVariable {c d : Nat} (paired : p.dicts c d) (template name : String) (lenient : Bool)
    (line : Int) :
    Operation (Value.Alike p) ((env.scope template).getVariable c name lenient line)
      ((env'.scope template).getVariable d name lenient line)
  | getAttribute {o o' i i' : Value} {vs ws : List Value} (object : Value.Alike p o o')
    (item : Value.Alike p i i') (args : Forall₂ (Value.Alike p) vs ws) (template : String)
    (access : Node.Access) (defined lenient : Bool) (line : Int) :
    Operation (Value.Alike p) ((env.scope template).getAttribute o i vs access defined lenient line)
      ((env'.scope template).getAttribute o' i' ws access defined lenient line)
  | calculate {v w x y} (left : Value.Alike p v w) (right : Value.Alike p x y) (template : String)
    (op : Arithmetic) :
    Operation (Value.Alike p)
      ((env.scope template).calculate op v x) ((env'.scope template).calculate op w y)
  | relate {v w x y} (left : Value.Alike p v w) (right : Value.Alike p x y) (template : String)
    (r : Relation) :
    Operation Eq ((env.scope template).relate r v x) ((env'.scope template).relate r w y)
  | negate {v w} (value : Value.Alike p v w) (template : String) :
    Operation (Value.Alike p) ((env.scope template).negate v) ((env'.scope template).negate w)
  | positive {v w} (value : Value.Alike p v w) (template : String) :
    Operation (Value.Alike p) ((env.scope template).positive v) ((env'.scope template).positive w)
  | range {v w x y} (low : Value.Alike p v w) (high : Value.Alike p x y) (template : String) :
    Operation (Value.Alike p)
      ((env.scope template).range v x (.int 1)) ((env'.scope template).range w y (.int 1))

/-- The steps on the store that keep variables, with results that are alike. -/
inductive Upkeep : {α : Type} → (α → α → Prop) → Act α → Act α → Prop
  | dict {es fs} (entries : Entries.Alike p es fs) :
    Upkeep (Value.Alike p) (Act.newDict es) (Act.newDict fs)
  | copy {c d} (paired : p.dicts c d) :
    Upkeep
      (Value.Alike p) (do Act.newDict (← Act.dictEntries c)) (do Act.newDict (← Act.dictEntries d))
  | need {c d} (paired : p.dicts c d) (name : String) :
    Upkeep (Value.Alike p) (Loop.need c name) (Loop.need d name)
  | put {c d v w} (paired : p.dicts c d) (name : String) (value : Value.Alike p v w) :
    Upkeep Eq (Loop.put c name v) (Loop.put d name w)
  | save {c d} (paired : p.dicts c d) : Upkeep Eq (Loop.save c) (Loop.save d)
  | enter {c d v w} (paired : p.dicts c d) (flags : LoopFlags) (seq : Value.Alike p v w) :
    Upkeep Eq (Loop.enter c flags v) (Loop.enter d flags w)
  | setLoops {v w} (seq : Value.Alike p v w) (change : Nat → Nat) :
    Upkeep Eq (Loop.setLoops v change) (Loop.setLoops w change)
  | endRound {c d} (paired : p.dicts c d) (flags : LoopFlags) :
    Upkeep Eq (Loop.endRound c flags) (Loop.endRound d flags)
  | leaveScope {c d} (paired : p.dicts c d) (template : String) (targets : List String) :
    Upkeep Eq
      ((env.scope template).leaveScope c targets) ((env'.scope template).leaveScope d targets)

end Operations

namespace Correspondence

variable (L : Correspondence) (p : Pairing) (env env' : Environment) (root root' : String)

/-- All that expressions and the search for templates ask of two environments. -/
structure Serves : Prop where
  registry : env'.registry = env.registry
  act : ∀ {α : Type} {R : α → α → Prop} {x y : Act α}, Operation p env env' R x y →
    L.rel R (Eval.ofAct x) (Eval.ofAct y)
  invoke : ∀ {k : Callable}, env.registry.Offers k → ∀ {vs ws : List Value}
    {named named' : List (String × Value)}, Forall₂ (Value.Alike p) vs ws →
    Forall₂ (Value.NamedAlike p) named named' → ∀ t c d blocks blocks' sort name line,
    L.rel (Value.Alike p) ((env.frame root t c blocks).invoke (some k) sort name vs named line)
      ((env'.frame root' t d blocks').invoke (some k) sort name ws named' line)
  look : ∀ {α : Type} {R : α → α → Prop} {f g : World → Eval α},
    (∀ w v, Store.Alike p w.store v.store → L.rel R (f w) (g v)) → L.rel R (get >>= f) (get >>= g)
  located : ∀ {α : Type} {R : α → α → Prop} {x y : Eval α}, L.rel R x y →
    ∀ t c d blocks blocks' mark, L.rel R ((env.frame root t c blocks).located mark x)
      ((env'.frame root' t d blocks').located mark y)
  templateOf : ∀ {unit : String}, p.templates unit →
    L.rel Eq (Eval.templateOf unit) (Eval.templateOf unit)
  loading : ∀ (name : String) {meet meet' : Fault → Eval (Option Template)},
    (∀ fault, L.rel Eq (meet fault) (meet' fault)) →
    L.rel Eq (tryCatch (return some (← Eval.ofTask (env.loadTemplate name))) meet)
      (tryCatch (return some (← Eval.ofTask (env'.loadTemplate name))) meet')

/-- All that renderings ask of two environments. -/
structure Keeps : Prop extends L.Serves p env env' root root' where
  keep : ∀ {α : Type} {R : α → α → Prop} {x y : Act α}, Upkeep p env env' R x y →
    L.rel R (Eval.ofAct x) (Eval.ofAct y)

structure Blocks (calls calls' : Calls) (frame frame' : Frame) : Prop where
  displayBlock : ∀ name,
    L.rel Eq (calls.displayBlock frame.template name frame.context frame.blocks true)
      (calls'.displayBlock frame'.template name frame'.context frame'.blocks true)
  displayParentBlock : ∀ name,
    L.rel Eq (calls.displayParentBlock frame.template name frame.context frame.blocks)
      (calls'.displayParentBlock frame'.template name frame'.context frame'.blocks)

/-- Whatever is called corresponds to what is called in the same way on the other side. -/
structure Called (calls calls' : Calls) : Prop where
  display : ∀ t {c d : Nat}, p.dicts c d → ∀ blocks,
    L.rel Eq (calls.display t c blocks) (calls'.display t d blocks)
  displayBlock : ∀ t name {c d : Nat}, p.dicts c d → ∀ blocks useBlocks,
    L.rel Eq (calls.displayBlock t name c blocks useBlocks)
      (calls'.displayBlock t name d blocks useBlocks)
  displayParentBlock : ∀ t name {c d : Nat}, p.dicts c d → ∀ blocks,
    L.rel Eq (calls.displayParentBlock t name c blocks) (calls'.displayParentBlock t name d blocks)
  displayParent : ∀ t {c d : Nat}, p.dicts c d → ∀ blocks,
    L.rel Eq (calls.displayParent t c blocks) (calls'.displayParent t d blocks)

variable {L p env env' root root'} {calls calls' : Calls} {t : Template} {c d : Nat}
  {blocks blocks' : Stencil.Blocks}

theorem Called.matched (h : L.Called p calls calls') (paired : p.dicts c d) :
    L.Blocks calls calls' (env.frame root t c blocks) (env'.frame root' t d blocks) where
  displayBlock name := h.displayBlock t name paired blocks true
  displayParentBlock name := h.displayParentBlock t name paired blocks

end Correspondence

/-! ## Values that lead to templates -/

section Met

variable {p : Pairing}

namespace Datum

mutual

def Met (p : Pairing) : Datum → Prop
  | .template _ unit => p.templates unit
  | .list items => AllMet p items
  | .tuple items => AllMet p items
  | _ => True

def AllMet (p : Pairing) : List Datum → Prop
  | [] => True
  | d :: ds => Met p d ∧ AllMet p ds

end

end Datum

mutual

theorem Value.Alike.view_met {v w : Value} (h : Value.Alike p v w) {l d s : Nat → Datum}
    (lists : ∀ a b, p.lists a b → (l a).Met p) (dicts : ∀ a b, p.dicts a b → (d a).Met p)
    (sets : ∀ a b, p.sets a b → (s a).Met p) : (v.view l d s).Met p := by
  cases h with
  | tuple items => exact Value.viewAll_met items lists dicts sets
  | list paired => exact lists _ _ paired
  | dict paired => exact dicts _ _ paired
  | set paired => exact sets _ _ paired
  | template name met => exact met
  | _ => trivial

theorem Value.viewAll_met {vs ws : List Value} (h : Forall₂ (Value.Alike p) vs ws)
    {l d s : Nat → Datum} (lists : ∀ a b, p.lists a b → (l a).Met p)
    (dicts : ∀ a b, p.dicts a b → (d a).Met p) (sets : ∀ a b, p.sets a b → (s a).Met p) :
    Datum.AllMet p (viewAll l d s vs) := by
  cases h with
  | nil => trivial
  | cons head tail => exact ⟨head.view_met lists dicts sets, viewAll_met tail lists dicts sets⟩

end

theorem Datum.allMet_map {see : Value → Datum} (hsee : ∀ v w, Value.Alike p v w → (see v).Met p)
    {vs ws : List Value} (h : Forall₂ (Value.Alike p) vs ws) : AllMet p (vs.map see) := by
  induction h with
  | nil => trivial
  | cons head tail ih => exact ⟨hsee _ _ head, ih⟩

theorem Store.Alike.viewWithin_met {s t : Store} (h : Store.Alike p s t) (n : Nat)
    (path : List Place) {v w : Value} (hvw : Value.Alike p v w) : (s.viewWithin n path v).Met p := by
  induction n generalizing path v w with
  | zero =>
    exact hvw.view_met (fun _ _ _ => trivial) (fun _ _ _ => trivial) fun _ _ _ => trivial
  | succ n ih =>
    have seen : ∀ {place place' : Place}, Place.Alike p place place' →
        (if place ∈ path then place.hidden
          else s.written (s.viewWithin n (place.under path)) place).Met p := by
      intro place place' paired
      split
      · cases place <;> trivial
      · cases paired with
        | list paired => exact Datum.allMet_map (fun _ _ => ih _) (h.list paired)
        | dict | set => trivial
    exact hvw.view_met (fun _ _ paired => seen (.list paired)) (fun _ _ paired => seen (.dict paired))
      fun _ _ paired => seen (.set paired)

theorem Store.Alike.view_met {s t : Store} (h : Store.Alike p s t) {v w : Value}
    (hvw : Value.Alike p v w) : (s.view v).Met p :=
  h.viewWithin_met _ _ hvw

namespace Loop

theorem ofPair_alike {v w : Value} (h : Value.Alike p v w) : Value.PairAlike p (ofPair v) (ofPair w) := by
  have whole : Value.PairAlike p (.null, v) (.null, w) := ⟨.null, h⟩
  cases h with
  | tuple items =>
    cases items with
    | nil => exact whole
    | cons key rest =>
      cases rest with
      | nil => exact whole
      | cons value rest =>
        cases rest with
        | nil => exact ⟨key, value⟩
        | cons third rest => exact whole
  | _ => exact whole

end Loop
end Met

/-! ## Renderings on one store -/

def Pairing.same : Pairing where
  lists := Eq
  dicts := Eq
  sets := Eq
  handles := Eq
  objects := True
  templates _ := True
  lists_unique := ⟨fun _ _ _ h h' => h.trans h'.symm, fun _ _ _ h h' => h.symm.trans h'⟩
  dicts_unique := ⟨fun _ _ _ h h' => h.trans h'.symm, fun _ _ _ h h' => h.symm.trans h'⟩
  sets_unique := ⟨fun _ _ _ h h' => h.trans h'.symm, fun _ _ _ h h' => h.symm.trans h'⟩
  handles_unique := ⟨fun _ _ _ h h' => h.trans h'.symm, fun _ _ _ h h' => h.symm.trans h'⟩

theorem forall₂_refl {α : Type} {R : α → α → Prop} (h : ∀ a, R a a) (xs : List α) : Forall₂ R xs xs :=
  List.forall₂_same.2 fun a _ => h a

mutual

theorem Value.Alike.refl (v : Value) : Value.Alike .same v v := by
  cases v with
  | null => exact .null
  | bool b => exact .bool b
  | int i => exact .int i
  | float f => exact .float f
  | text s => exact .text s
  | tuple items => exact .tuple (Value.allAlike_refl items)
  | list r => exact .list rfl
  | dict r => exact .dict rfl
  | set r => exact .set rfl
  | object n o => exact .object o trivial rfl
  | template name unit => exact .template name trivial
  | method n name r => exact .method name rfl rfl

theorem Value.allAlike_refl (vs : List Value) : Forall₂ (Value.Alike .same) vs vs := by
  cases vs with
  | nil => exact .nil
  | cons v vs => exact .cons (Value.Alike.refl v) (Value.allAlike_refl vs)

end

mutual

theorem Value.Alike.eq {v w : Value} (h : Value.Alike .same v w) : v = w := by
  cases h with
  | tuple items => rw [Value.eq_of_allAlike items]
  | list paired | dict paired | set paired => exact congrArg _ paired
  | object o met paired => exact congrArg (Value.object · o) paired
  | method name paired owners => rw [show _ = _ from paired, show _ = _ from owners]
  | _ => rfl

theorem Value.eq_of_allAlike {vs ws : List Value} (h : Forall₂ (Value.Alike .same) vs ws) :
    vs = ws := by
  cases h with
  | nil => rfl
  | cons head tail => rw [head.eq, Value.eq_of_allAlike tail]

end

theorem Value.eq_of_allNamedAlike {vs ws : List (String × Value)}
    (h : Forall₂ (Value.NamedAlike .same) vs ws) : vs = ws := by
  induction h with
  | nil => rfl
  | cons head _ ih => rw [Prod.ext head.1 head.2.eq, ih]

theorem Entries.Alike.refl (es : Entries) : Entries.Alike .same es es :=
  forall₂_refl (fun e => ⟨.refl e.1, .refl e.2⟩) es

theorem Entries.Alike.eq {es fs : Entries} (h : Entries.Alike .same es fs) : es = fs := by
  induction h with
  | nil => rfl
  | cons head _ ih => rw [Prod.ext head.1.eq head.2.eq, ih]

theorem CellsAlike.refl {α : Type} {R : α → α → Prop} (h : ∀ a, R a a) (xs : Array α) :
    CellsAlike Eq R xs xs where
  get {a b} paired := by
    rw [show a = b from paired]
    cases xs[b]? with
    | none => exact .none
    | some x => exact .some (h x)
  next _ := rfl

theorem Store.Alike.refl (s : Store) : Store.Alike .same s s where
  lists := .refl (fun c => ⟨Value.allAlike_refl c.items, rfl⟩) s.lists
  dicts := .refl (fun t => ⟨.refl t.entries, rfl⟩) s.dicts
  sets := .refl (fun t => ⟨.refl t.entries, rfl⟩) s.sets
  handles _ := rfl
  copies _ := rfl

variable {env env' : Environment} {α : Type} {R : α → α → Prop} {x y : Act α}

theorem Operation.refl (h : Operation .same env env' R x y) (a : α) : R a a := by
  cases h with
  | entries => exact .refl a
  | print | relate => rfl
  | _ => exact .refl a

theorem Operation.eq (h : Operation .same env env' R x y) (a b : α) (related : R a b) : a = b := by
  cases h with
  | entries => exact Entries.Alike.eq related
  | print | relate => exact related
  | _ => exact Value.Alike.eq related

theorem Upkeep.refl (h : Upkeep .same env env' R x y) (a : α) : R a a := by
  cases h with
  | dict | copy | need => exact .refl a
  | _ => rfl

namespace Correspondence
namespace Serves

variable {L : Correspondence} {p : Pairing} {env env' : Environment} {root root' : String}
  {calls calls' : Calls} {t : Template} {c d : Nat} {blocks blocks' : Stencil.Blocks}
  (h : L.Serves p env env' root root')

include h

theorem truth {v w : Value} (value : Value.Alike p v w) :
    L.rel Eq (Frame.truth v) (Frame.truth w) :=
  h.look fun _ _ stores => L.pure (stores.truth value)

theorem printed {v w : Value} (value : Value.Alike p v w) :
    L.rel Eq (Frame.printed v) (Frame.printed w) :=
  h.act (.print value)

theorem call {callable : Option Callable}
    (offered : ∀ k, callable = some k → env.registry.Offers k) {vs ws : List Value}
    {named named' : List (String × Value)} (args : Forall₂ (Value.Alike p) vs ws)
    (hnamed : Forall₂ (Value.NamedAlike p) named named') (sort name : String) (line : Int) :
    L.rel (Value.Alike p) ((env.frame root t c blocks).invoke callable sort name vs named line)
      ((env'.frame root' t d blocks').invoke callable sort name ws named' line) := by
  cases callable with
  | none => exact L.fail _
  | some k => exact h.invoke (offered k rfl) args hnamed t c d blocks blocks' sort name line

/-! ## Expressions -/

section Expressions

variable (paired : p.dicts c d)
  (hcalls : L.Blocks calls calls' (env.frame root t c blocks) (env'.frame root' t d blocks'))

include paired hcalls

-- each of the three statements below uses the assumptions only through the other two
set_option linter.unusedSectionVars false in
mutual

theorem value (e : Expr) :
    L.rel (Value.Alike p) ((env.frame root t c blocks).value calls e)
      ((env'.frame root' t d blocks').value calls' e) := by
  cases e with
  | constant k =>
    refine L.pure ?_
    cases k with
    | null | foreign => exact .null
    | bool b => exact .bool b
    | int i => exact .int i
    | float f => exact .float f
    | text s => exact .text s
  | context => exact L.pure (.dict paired)
  | reading name lenient line => exact h.act (.getVariable paired t.name name lenient line)
  | known name =>
    refine L.bind (h.act (.entries paired)) fun _ _ entries => ?_
    rw [isSome_of_rel (entries.get? (.text name))]
    exact L.pure (.bool _)
  | attr object item args access defined lenient line =>
    exact L.bind (value object) fun _ _ o => L.bind (value item) fun _ _ i =>
      L.bind (values args) fun _ _ vs => h.act (.getAttribute o i vs t.name access defined lenient line)
  | array items => exact L.bind (values items) fun _ _ vs => h.act (.list vs)
  | hash parts => exact L.bind (values parts) fun _ _ vs => h.act (.hash vs)
  | filter name operand args names vs line =>
    refine L.bind (value operand) fun _ _ v => L.bind (values args) fun _ _ positional =>
      L.bind (namedValues .nil names vs) fun _ _ named => ?_
    change L.rel _ _ (Frame.invoke _ (env'.registry.filters.get? name) _ _ _ _ _)
    rw [h.registry]
    exact h.call (fun _ found => ⟨name, .inl found⟩) (.cons v positional) named _ _ line
  | call name args names vs line =>
    refine L.bind (values args) fun _ _ positional =>
      L.bind (namedValues .nil names vs) fun _ _ named => ?_
    change L.rel _ _ (Frame.invoke _ (env'.registry.functions.get? name) _ _ _ _ _)
    rw [h.registry]
    exact h.call (fun _ found => ⟨name, .inr (.inl found)⟩) positional named _ _ line
  | test name operand args names vs line =>
    refine L.bind (value operand) fun _ _ v => L.bind (values args) fun _ _ positional =>
      L.bind (namedValues .nil names vs) fun _ _ named => L.bind ?_ fun _ _ answer =>
        L.bind_eq (h.truth answer) fun _ => L.pure (.bool _)
    change L.rel _ _ (Frame.invoke _ (env'.registry.tests.get? name) _ _ _ _ _)
    rw [h.registry]
    exact h.call (fun _ found => ⟨name, .inr (.inr found)⟩) (.cons v positional) named _ _ line
  | conditional condition yes no =>
    exact L.bind (value condition) fun _ _ v => L.bind_eq (h.truth v) fun _ =>
      L.ite (value yes) (value no)
  | parentBlock name => exact L.bind_eq (hcalls.displayParentBlock name) fun _ => L.pure (.text _)
  | blockCall e =>
    exact L.bind (value e) fun _ _ v => L.bind_eq (h.printed v) fun _ =>
      L.bind_eq (hcalls.displayBlock _) fun _ => L.pure (.text _)
  | calculate op l r =>
    exact L.bind (value l) fun _ _ a => L.bind (value r) fun _ _ b =>
      h.act (.calculate a b t.name op)
  | relate rel l r =>
    exact L.bind (value l) fun _ _ a => L.bind (value r) fun _ _ b =>
      L.bind_eq (h.act (.relate a b t.name rel)) fun _ => L.pure (.bool _)
  | negate e => exact L.bind (value e) fun _ _ v => h.act (.negate v t.name)
  | positive e => exact L.bind (value e) fun _ _ v => h.act (.positive v t.name)
  | concat l r =>
    exact L.bind (value l) fun _ _ a => L.bind_eq (h.printed a) fun _ =>
      L.bind (value r) fun _ _ b => L.bind_eq (h.printed b) fun _ => L.pure (.text _)
  | startsWith l r | endsWith l r =>
    exact L.bind (value l) fun _ _ a => L.bind_eq (h.printed a) fun _ =>
      L.bind (value r) fun _ _ b => L.bind_eq (h.printed b) fun _ => L.pure (.bool _)
  | member negated l r =>
    refine L.bind (value r) fun _ _ haystack => L.bind (value l) fun _ _ needle =>
      h.look fun _ _ stores => ?_
    rw [stores.contains haystack needle]
    exact L.pure (.bool _)
  | range l r =>
    exact L.bind (value l) fun _ _ a => L.bind (value r) fun _ _ b => h.act (.range a b t.name)
  | conj l r =>
    exact L.bind (value l) fun _ _ a => L.bind_eq (h.truth a) fun _ =>
      L.ite (L.bind (value r) fun _ _ b => L.bind_eq (h.truth b) fun _ => L.pure (.bool _))
        (L.pure (.bool false))
  | disj l r =>
    exact L.bind (value l) fun _ _ a => L.bind_eq (h.truth a) fun _ => L.ite (L.pure (.bool true))
      (L.bind (value r) fun _ _ b => L.bind_eq (h.truth b) fun _ => L.pure (.bool _))
  | negation e =>
    exact L.bind (value e) fun _ _ v => L.bind_eq (h.truth v) fun _ => L.pure (.bool _)

theorem values (es : List Expr) :
    L.rel (Forall₂ (Value.Alike p)) ((env.frame root t c blocks).values calls es)
      ((env'.frame root' t d blocks').values calls' es) := by
  cases es with
  | nil => exact L.pure .nil
  | cons e es =>
    exact L.bind (value e) fun _ _ v => L.bind (values es) fun _ _ vs => L.pure (.cons v vs)

theorem namedValues {before before' : List (String × Value)}
    (hbefore : Forall₂ (Value.NamedAlike p) before before') (names : List String) (es : List Expr) :
    L.rel (Forall₂ (Value.NamedAlike p)) ((env.frame root t c blocks).namedValues calls before names es)
      ((env'.frame root' t d blocks').namedValues calls' before' names es) := by
  cases es with
  | nil =>
    unfold Frame.namedValues
    exact L.pure hbefore
  | cons e es =>
    refine L.bind (value e) fun v w value => ?_
    dsimp only
    rw [isSome_of_rel (lookup_rel hbefore (names.headD ""))]
    have more : Forall₂ (Value.NamedAlike p) (before ++ [(names.headD "", v)])
        (before' ++ [(names.headD "", w)]) := List.rel_append hbefore (.cons ⟨rfl, value⟩ .nil)
    exact L.ite (L.fail _) (namedValues more _ es)

end

theorem valueIfAny (e : Option Expr) :
    L.rel (Value.Alike p) ((env.frame root t c blocks).valueIfAny calls e)
      ((env'.frame root' t d blocks').valueIfAny calls' e) := by
  cases e with
  | none => exact L.pure .null
  | some e => exact h.value paired hcalls e

theorem parentOf (none : blocks = [] ∧ blocks' = []) :
    L.rel Eq (parentOf env root calls t c) (parentOf env' root' calls' t d) := by
  obtain ⟨rfl, rfl⟩ := none
  unfold parentOf
  dsimp only
  cases t.parent with
  | none => exact L.pure rfl
  | some e =>
    refine L.bind (h.located (h.value paired hcalls e) t c d [] [] t.parentMark) fun _ _ parent => ?_
    cases parent with
    | null => exact L.pure rfl
    | template name met => exact L.bind_eq (h.templateOf met) fun _ => L.pure rfl
    | text name => exact h.loading name fun _ => L.fail _
    | _ => exact L.fail _

end Expressions

/-! ## Other templates -/

set_option linter.unusedSectionVars false in
mutual

theorem resolve (ignoreMissing : Bool) (line : Int) {x : Datum} (met : x.Met p) :
    L.rel Eq ((env.frame root t c blocks).resolve ignoreMissing line x)
      ((env'.frame root' t d blocks').resolve ignoreMissing line x) := by
  cases x with
  | template name unit => exact L.bind_eq (h.templateOf met) fun _ => L.pure rfl
  | list | tuple => exact resolveFirst ignoreMissing line [] met
  | _ =>
    exact h.loading _ fun _ => L.ite (L.pure rfl)
      (L.raiseFrom (env.frame root t c blocks) (env'.frame root' t d blocks') rfl line _ _)

theorem resolveFirst (ignoreMissing : Bool) (line : Int) (tried : List String) {xs : List Datum}
    (met : Datum.AllMet p xs) :
    L.rel Eq ((env.frame root t c blocks).resolveFirst ignoreMissing line tried xs)
      ((env'.frame root' t d blocks').resolveFirst ignoreMissing line tried xs) := by
  cases xs with
  | nil => exact L.ite (L.pure rfl) (L.fail _)
  | cons x xs =>
    refine L.bind_eq (resolve true line met.1) fun found => ?_
    cases found with
    | some t => exact L.pure rfl
    | none => exact resolveFirst ignoreMissing line _ met.2

end

theorem resolveValue {v w : Value} (value : Value.Alike p v w) (ignoreMissing : Bool) (line : Int) :
    L.rel Eq ((env.frame root t c blocks).resolveValue v ignoreMissing line)
      ((env'.frame root' t d blocks').resolveValue w ignoreMissing line) := by
  refine h.look fun _ _ stores => ?_
  have met := stores.view_met value
  rw [stores.view value] at met ⊢
  exact h.resolve ignoreMissing line met

theorem given {v w : Value} (value : Value.Alike p v w) (line : Int) :
    L.rel (Entries.Alike p) ((env.frame root t c blocks).given v line)
      ((env'.frame root' t d blocks').given w line) := by
  cases value with
  | null => exact L.pure .nil
  | dict paired => exact h.act (.entries paired)
  | _ => exact L.fail _

end Serves

/-! ## Statements -/

namespace Keeps

variable {L : Correspondence} {p : Pairing} {env env' : Environment} {root root' : String}
  {calls calls' : Calls} {t : Template} {c d : Nat} {blocks blocks' : Stencil.Blocks}
  (h : L.Keeps p env env' root root')

include h

/-- What is shown of another template depends on the variables there are only where they are handed
on. -/
theorem inclusion (hdisplay : ∀ t {c d : Nat}, p.dicts c d →
      L.rel Eq (calls.display t c []) (calls'.display t d []))
    {name name' bindings bindings' : Value} (hname : Value.Alike p name name')
    (hbindings : Value.Alike p bindings bindings') (only ignoreMissing : Bool) (line : Int)
    (inherits : only = false → p.dicts c d) :
    L.rel Eq ((env.frame root t c blocks).inclusion calls name bindings only ignoreMissing line)
      ((env'.frame root' t d blocks').inclusion calls' name' bindings' only ignoreMissing line) := by
  have inherited : L.rel (Entries.Alike p) ((env.frame root t c blocks).inherited only)
      ((env'.frame root' t d blocks').inherited only) := by
    cases only with
    | true => exact L.pure .nil
    | false => exact h.act (.entries (inherits rfl))
  refine L.bind (h.given hbindings line) fun _ _ extra => L.bind inherited fun _ _ base =>
    L.bind_eq (h.resolveValue hname ignoreMissing line) fun found => ?_
  cases found with
  | none => exact L.pure rfl
  | some t =>
    refine L.bind (h.keep (.dict (base.merge extra))) fun _ _ made => ?_
    cases made with
    | dict paired => exact hdisplay t paired
    | _ => exact L.pure rfl

section Statements

variable (paired : p.dicts c d)

include paired

theorem rounds (key val : String) {body body' : Eval String} (hbody : L.rel Eq body body')
    {vs ws : List Value} (items : Forall₂ (Value.Alike p) vs ws) :
    L.rel Eq ((env.frame root t c blocks).rounds key val body vs)
      ((env'.frame root' t d blocks').rounds key val body' ws) := by
  induction items with
  | nil => exact L.pure rfl
  | cons head tail ih =>
    have pair := Loop.ofPair_alike head
    exact L.bind (h.keep (.put paired key pair.1)) fun _ _ _ =>
      L.bind (h.keep (.put paired val pair.2)) fun _ _ _ => L.bind_eq hbody fun _ =>
        L.bind_eq ih fun _ => L.pure rfl

theorem looping (key val : String) {body body' : Eval String} (hbody : L.rel Eq body body') :
    L.rel Eq ((env.frame root t c blocks).looping key val body)
      ((env'.frame root' t d blocks').looping key val body') := by
  refine L.bind (h.keep (.need paired "_seq")) fun _ _ seq => h.look fun _ _ stores => ?_
  have items := getD_of_rel (stores.items? seq) .nil
  exact L.bind (h.keep (.setLoops seq _)) fun _ _ _ => L.bind_eq (h.rounds paired key val hbody items)
    fun _ => L.bind (h.keep (.setLoops seq _)) fun _ _ _ => L.pure rfl

theorem hadNone (flags : LoopFlags) :
    L.rel Eq ((env.frame root t c blocks).hadNone flags)
      ((env'.frame root' t d blocks').hadNone flags) := by
  refine L.ite (L.bind (h.keep (.need paired "_iterated")) fun _ _ iterated =>
    h.look fun _ _ stores => ?_) (L.pure rfl)
  rw [stores.holds iterated]
  exact L.pure rfl

theorem run (hdisplay : ∀ t {c d : Nat}, p.dicts c d →
      L.rel Eq (calls.display t c []) (calls'.display t d []))
    (hcalls : L.Blocks calls calls' (env.frame root t c blocks) (env'.frame root' t d blocks'))
    (code : Stmt) :
    L.rel Eq ((env.frame root t c blocks).run calls code)
      ((env'.frame root' t d blocks').run calls' code) := by
  have value := h.toServes.value paired hcalls
  have located := fun {α : Type} {R : α → α → Prop} {x y : Eval α} (mark : Int) (hxy : L.rel R x y) =>
    h.located hxy t c d blocks blocks' mark
  induction code with
  | skip | text => exact L.pure rfl
  | seq first second first_ih second_ih =>
    exact L.bind_eq first_ih fun _ => L.bind_eq second_ih fun _ => L.pure rfl
  | print e mark => exact located mark (L.bind (value e) fun _ _ v => h.printed v)
  | block name mark => exact located mark (hcalls.displayBlock name)
  | assign name e mark =>
    exact located mark (L.bind (value e) fun _ _ v => L.bind (h.keep (.put paired name v))
      fun _ _ _ => L.pure rfl)
  | capture name body mark body_ih =>
    exact located mark (L.bind_eq body_ih fun _ => L.bind (h.keep (.put paired name (.text _)))
      fun _ _ _ => L.pure rfl)
  | inclusion template bindings only ignoreMissing line mark =>
    exact located mark (L.bind (value template) fun _ _ name =>
      L.bind (h.valueIfAny paired hcalls bindings) fun _ _ extra =>
        h.inclusion hdisplay name extra only ignoreMissing line fun _ => paired)
  | branch condition yes no mark yes_ih no_ih =>
    exact L.bind_eq (located mark (L.bind (value condition) fun _ _ v => h.truth v)) fun _ =>
      L.ite yes_ih no_ih
  | loop key val sequence flags body otherwise mark elseMark endMark body_ih otherwise_ih =>
    have entered := L.bind (h.keep (.save paired)) fun _ _ _ => L.bind (value sequence)
      fun _ _ seq => h.keep (.enter paired flags seq)
    exact L.bind (located mark entered) fun _ _ _ =>
      L.bind_eq (located mark (h.looping paired key val body_ih)) fun _ =>
        L.bind_eq (located elseMark (h.hadNone paired flags)) fun _ =>
          L.bind_eq (L.ite otherwise_ih (L.pure rfl)) fun _ => L.bind (located endMark
            (h.keep (.leaveScope paired t.name [key, val]))) fun _ _ _ => L.pure rfl
  | round flags mark =>
    exact located mark (L.bind (h.keep (.endRound paired flags)) fun _ _ _ => L.pure rfl)

end Statements

/-! ## Calls -/

theorem copyOf (paired : p.dicts c d) : L.rel p.dicts (copyOf c) (copyOf d) := by
  refine L.bind (h.keep (.copy paired)) fun _ _ copy => ?_
  cases copy with
  | dict paired => exact L.pure paired
  | _ => exact L.pure paired

variable (hcalls : L.Called p calls calls')

include hcalls

theorem runBlock (paired : p.dicts c d) (blocks : Stencil.Blocks) (b : Block) :
    L.rel Eq (runBlock env root calls c blocks b)
      (runBlock env' root' calls' d blocks b) := by
  cases b with
  | code owner body =>
    exact L.bind (h.copyOf paired) fun _ _ paired =>
      h.run paired (fun t _ _ paired => hcalls.display t paired []) (hcalls.matched paired) body
  | foreign type => exact L.fail _

theorem display (t : Template) (paired : p.dicts c d) (blocks : Stencil.Blocks) :
    L.rel Eq (display env root calls t c blocks)
      (display env' root' calls' t d blocks) := by
  refine L.bind_eq (h.run paired (fun t _ _ paired => hcalls.display t paired [])
    (hcalls.matched paired) t.body) fun _ => ?_
  cases t.parent with
  | none => exact L.pure rfl
  | some e => exact h.located (hcalls.displayParent t paired _) t c d _ _ _

theorem parentOf (t : Template) (paired : p.dicts c d) :
    L.rel Eq (parentOf env root calls t c) (parentOf env' root' calls' t d) :=
  h.toServes.parentOf paired (hcalls.matched paired) ⟨rfl, rfl⟩

theorem displayBlock (t : Template) (name : String) (paired : p.dicts c d)
    (blocks : Stencil.Blocks) (useBlocks : Bool) :
    L.rel Eq (Render.displayBlock env root calls t name c blocks useBlocks)
      (Render.displayBlock env' root' calls' t name d blocks useBlocks) := by
  unfold Render.displayBlock
  dsimp only
  split
  · exact h.runBlock hcalls paired blocks _
  · refine L.bind_eq (h.parentOf hcalls t paired) fun parent => ?_
    cases parent with
    | some parent => exact hcalls.displayBlock parent name paired _ _
    | none => exact L.ite (L.fail _) (L.fail _)

theorem displayParentBlock (t : Template) (name : String) (paired : p.dicts c d)
    (blocks : Stencil.Blocks) :
    L.rel Eq (displayParentBlock env root calls t name c blocks)
      (displayParentBlock env' root' calls' t name d blocks) := by
  refine L.bind_eq (h.parentOf hcalls t paired) fun parent => ?_
  cases parent with
  | some parent => exact hcalls.displayBlock parent name paired _ _
  | none => exact L.fail _

theorem displayParent (t : Template) (paired : p.dicts c d) (blocks : Stencil.Blocks) :
    L.rel Eq (displayParent env root calls t c blocks)
      (displayParent env' root' calls' t d blocks) := by
  refine L.bind_eq (h.parentOf hcalls t paired) fun parent => ?_
  cases parent with
  | some parent => exact hcalls.display parent paired _
  | none => exact L.fail _

theorem next :
    L.Called p
      ⟨Render.display env root calls, Render.displayBlock env root calls,
        Render.displayParentBlock env root calls, Render.displayParent env root calls⟩
      ⟨Render.display env' root' calls', Render.displayBlock env' root' calls',
        Render.displayParentBlock env' root' calls', Render.displayParent env' root' calls'⟩ where
  display t _ _ paired := h.display hcalls t paired
  displayBlock t name _ _ paired := h.displayBlock hcalls t name paired
  displayParentBlock t name _ _ paired := h.displayParentBlock hcalls t name paired
  displayParent t _ _ paired := h.displayParent hcalls t paired

omit hcalls in
/-- **Calls correspond**, however deep they are nested. -/
theorem callsAt (depth : Nat) :
    L.Called p (callsAt env root depth) (callsAt env' root' depth) := by
  induction depth with
  | zero =>
    exact ⟨fun _ _ _ _ _ => L.fail _, fun _ _ _ _ _ _ _ => L.fail _, fun _ _ _ _ _ _ => L.fail _,
      fun _ _ _ _ _ => L.fail _⟩
  | succ depth ih => exact h.next ih

end Keeps
end Correspondence
end Stencil
