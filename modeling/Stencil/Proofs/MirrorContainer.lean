import Stencil.Proofs.Mirror

/-!
# Methods of containers that mirror each other

Two stores may hold the same data under different names, one paired with the other. Containers that
are paired have the same methods, and these mirror each other: called with arguments that are alike,
both fail alike or come to results that are alike, and leave stores that are still alike.

## What is here

* `MethodsMirror` says so of two methods, and `mirrors_fixed` of all that only check how many arguments
  there are before they do their work.
* For each of lists, dicts and sets, one lemma per method, and `listMethods_alike`, `dictMethods_alike`,
  `setMethods_alike` for the whole table of them.
* The methods of sets that take another container differ only in what they make of the two, so
  `mirrors_setWith` goes through all of them at once.
* `Container.method?_mirror` puts the tables together. It is what `Proofs/MirrorRender.lean` asks of the
  methods of an environment.
-/

namespace Stencil

open List Act

variable {p : Pairing}

namespace Container

open Act (Mirrors)
open Arguments (positional checkFrom_alike)

variable {α β : Type} {R : α → β → Prop} {a b : Nat} {v w : Value} {vs ws : List Value}

/-- Two methods do the same, as far as the pairing tells. -/
def MethodsMirror (p : Pairing) (m n : Method) : Prop :=
  ∀ vs ws, Forall₂ (Value.Alike p) vs ws → Mirrors p (Value.Alike p) (m vs) (n ws)

theorem mirrors_named (name : String) {x : Act α} {y : Act β} (h : Mirrors p R x y) :
    Mirrors p R (named name x) (named name y) :=
  h.tryCatch fun _ => .throw _

/-- Arguments that are alike are refused with the same words, so only what follows the check counts. -/
theorem mirrors_checked (name : String) (least : Nat) (wants : List Arguments.Want)
    (args : Forall₂ (Value.Alike p) vs ws) {x : Unit → Act α} {y : Unit → Act β}
    (h : Mirrors p R (x ()) (y ())) :
    Mirrors p R (Act.ofExcept (Arguments.positional name least wants vs) >>= x)
      (Act.ofExcept (Arguments.positional name least wants ws) >>= y) := by
  rw [positional, positional, args.length_eq, checkFrom_alike name 1 wants args]
  exact (Act.mirrors_check _).bind_eq fun _ => h

theorem mirrors_fixed (name : String) (count : Nat) {run run' : List Value → Act Value}
    (h : ∀ vs ws, Forall₂ (Value.Alike p) vs ws → Mirrors p (Value.Alike p) (run vs) (run' ws)) :
    MethodsMirror p (fixed name count run) (fixed name count run') :=
  fun vs ws args => mirrors_checked name count _ args (h vs ws args)

theorem headD_alike (args : Forall₂ (Value.Alike p) vs ws) :
    Value.Alike p (vs.headD .null) (ws.headD .null) := by
  cases args with
  | nil => exact .null
  | cons head tail => exact head

/-! ## Lists -/

theorem mirrors_checkStill (paired : p.lists a b) (verb : String) :
    Mirrors p Eq (checkStill a verb) (checkStill b verb) := by
  refine .get_bind fun s t stores => ?_
  rw [(stores.listCell paired).loops]
  exact .ite (.throw _) (.pure rfl)

theorem mirrors_putList (paired : p.lists a b) (verb : String)
    (items : Forall₂ (Value.Alike p) vs ws) :
    Mirrors p (Value.Alike p) (putList a verb vs) (putList b verb ws) :=
  (mirrors_checkStill paired verb).bind fun _ _ _ =>
    (Step.Mirrors.change fun _ _ stores =>
      stores.setListCell paired ⟨items, (stores.listCell paired).loops⟩).bind fun _ _ _ => .pure .null

theorem index32_alike (length : Nat) (default : Int) {x y : Option Value}
    (h : Option.Rel (Value.Alike p) x y) : index32 length default x = index32 length default y := by
  cases h with
  | none => rfl
  | some related => cases related <;> rfl

/-- The first item that equals a key stands at the same place on both sides. -/
theorem findFrom_alike {s t : Store} (stores : Store.Alike p s t) (key : Value.Alike p v w) (i : Nat)
    (items : Forall₂ (Value.Alike p) vs ws) : findFrom s v i vs = findFrom t w i ws := by
  induction items generalizing i with
  | nil => rfl
  | cons head tail ih =>
    rw [findFrom, findFrom, stores.compare .eq head key, ih]

theorem mirrors_listIndex (paired : p.lists a b) : MethodsMirror p (listIndex a) (listIndex b) := by
  intro vs ws args
  refine mirrors_checked _ _ _ args (mirrors_named _ ?_)
  refine (Act.mirrors_listItems paired).bind fun items items' hitems => ?_
  dsimp only
  rw [hitems.length_eq, index32_alike _ _ (rel_getElem? args 1),
    index32_alike _ _ (rel_getElem? args 2)]
  refine (mirrors_check _).bind_eq fun start => (mirrors_check _).bind_eq fun stop =>
    .get_bind fun s t stores => ?_
  rw [findFrom_alike stores (headD_alike args) _ (forall₂_take _ (forall₂_drop _ hitems))]
  refine (mirrors_check _).bind_eq fun found => ?_
  cases found with
  | some i => exact .pure (.int i)
  | none => exact .throw _

theorem mirrors_listInsert (paired : p.lists a b) :
    MethodsMirror p (listInsert a) (listInsert b) := by
  intro vs ws args
  refine mirrors_checked _ _ _ args ?_
  cases args with
  | nil => exact .pure .null
  | cons head tail =>
    cases head with
    | int i =>
      cases tail with
      | nil => exact .pure .null
      | cons value rest =>
        cases rest with
        | nil =>
          refine (mirrors_listItems paired).bind fun items items' hitems => ?_
          rw [hitems.length_eq]
          exact mirrors_named _ (mirrors_putList paired _ (rel_append
            (forall₂_take _ hitems) (.cons value (forall₂_drop _ hitems))))
        | cons => exact .pure .null
    | _ => exact .pure .null

theorem eraseIdx_rel {R : α → β → Prop} {xs : List α} {ys : List β} (h : Forall₂ R xs ys) (i : Nat) :
    Forall₂ R (xs.eraseIdx i) (ys.eraseIdx i) := by
  induction h generalizing i with
  | nil => exact .nil
  | cons head tail ih =>
    cases i with
    | zero => exact tail
    | succ i => exact .cons head (ih i)

theorem askedFor_alike (length : Nat) (args : Forall₂ (Value.Alike p) vs ws) :
    askedFor length vs = askedFor length ws := by
  cases args with
  | nil => rfl
  | cons head tail =>
    cases tail with
    | nil | cons => cases head <;> rfl

theorem mirrors_listPop (paired : p.lists a b) : MethodsMirror p (listPop a) (listPop b) := by
  intro vs ws args
  refine mirrors_checked _ _ _ args (mirrors_named _ ?_)
  refine (Act.mirrors_listItems paired).bind fun items items' hitems => ?_
  dsimp only
  rw [hitems.length_eq, askedFor_alike _ args]
  generalize askedFor items'.length ws = given
  generalize (if given < 0 then given + (items'.length : Int) else given) = i
  by_cases before : i < 0
  · rw [if_pos before, if_pos before]
    exact .throw _
  · rw [if_neg before, if_neg before]
    have found := rel_getElem? hitems i.toNat
    generalize items[i.toNat]? = x at found ⊢
    generalize items'[i.toNat]? = y at found ⊢
    cases found with
    | none => exact .throw _
    | some related =>
      exact Step.Mirrors.bind ((mirrors_putList paired _ (eraseIdx_rel hitems _)).map
        fun _ _ _ => rfl) fun _ _ _ => .pure related

theorem mirrors_listRemove (paired : p.lists a b) : MethodsMirror p (listRemove a) (listRemove b) := by
  refine mirrors_fixed _ _ fun vs ws args => mirrors_named _ ?_
  refine (mirrors_checkStill paired _).bind fun _ _ _ =>
    (mirrors_listItems paired).bind fun items items' hitems => .get_bind fun s t stores => ?_
  rw [findFrom_alike stores (headD_alike args) 0 hitems]
  refine (mirrors_check _).bind_eq fun found => ?_
  cases found with
  | some i => exact mirrors_putList paired _ (eraseIdx_rel hitems i)
  | none => exact .throw _

theorem mirrors_listExtend (paired : p.lists a b) : MethodsMirror p (listExtend a) (listExtend b) := by
  intro vs ws args
  refine mirrors_checked _ _ _ args (.get_bind fun s t stores => mirrors_named _ ?_)
  have more := getD_of_rel (stores.items? (headD_alike args)) .nil
  exact (Act.mirrors_listItems paired).bind fun _ _ items =>
    mirrors_putList paired _ (rel_append items more)

/-- **The methods of two lists that are paired mirror each other.** -/
theorem listMethods_alike (paired : p.lists a b) :
    Forall₂ (fun m n => m.1 = n.1 ∧ MethodsMirror p m.2 n.2) (listMethods a) (listMethods b) := by
  refine .cons ⟨rfl, ?_⟩ (.cons ⟨rfl, ?_⟩ (.cons ⟨rfl, mirrors_listExtend paired⟩
    (.cons ⟨rfl, mirrors_listIndex paired⟩ (.cons ⟨rfl, mirrors_listInsert paired⟩
      (.cons ⟨rfl, mirrors_listPop paired⟩ (.cons ⟨rfl, mirrors_listRemove paired⟩ .nil))))))
  · exact mirrors_fixed _ _ fun vs ws args => mirrors_named _
      ((mirrors_listItems paired).bind fun _ _ items =>
        mirrors_putList paired _ (rel_append items args))
  · exact mirrors_fixed _ _ fun _ _ _ => mirrors_named _ (mirrors_putList paired _ .nil)

/-! ## Dicts -/

theorem mirrors_clear {ref ref' : TableRef} (paired : TableRef.Alike p ref ref') :
    Mirrors p Eq (alter ref fun t => (t.clear, none)) (alter ref' fun t => (t.clear, none)) :=
  Act.mirrors_alter paired fun _ _ tables => And.intro tables.clear rfl

theorem mirrors_dictGet (paired : p.dicts a b) : MethodsMirror p (dictGet a) (dictGet b) := by
  intro vs ws args
  refine mirrors_checked _ _ _ args ?_
  refine (mirrors_named _ (Act.mirrors_lookup paired (headD_alike args))).bind fun _ _ found => ?_
  cases found with
  | some related => exact .pure related
  | none => exact .pure (getD_of_rel (rel_getElem? args 1) .null)

theorem mirrors_dictPop (paired : p.dicts a b) : MethodsMirror p (dictPop a) (dictPop b) := by
  intro vs ws args
  refine mirrors_checked _ _ _ args (mirrors_named _ ?_)
  refine (Act.mirrors_table (.dict paired)).bind fun t u tables =>
    (Act.mirrors_ofExcept (tables.remove (headD_alike args))).bind fun _ _ removed => ?_
  cases removed with
  | some related =>
    exact (mirrors_putTable (.dict paired) related.2).bind fun _ _ _ => .pure related.1
  | none =>
    have given := rel_getElem? args 1
    generalize vs[1]? = x at given ⊢
    generalize ws[1]? = y at given ⊢
    cases given with
    | some related => exact .pure related
    | none => exact .throw _

/-- Taking out the first entry: of a dict for `popitem`, of a set for `pop`. -/
theorem mirrors_popFirst {ref ref' : TableRef} (paired : TableRef.Alike p ref ref') :
    Mirrors p (Option.Rel (Value.PairAlike p)) (popFirst ref) (popFirst ref') := by
  refine (mirrors_table paired).bind fun t u tables => ?_
  have entries := tables.entries
  generalize t.entries = es at entries ⊢
  generalize u.entries = fs at entries ⊢
  cases entries with
  | nil => exact .pure .none
  | @cons e f _ _ head tail =>
    obtain ⟨k, v⟩ := e
    obtain ⟨l, w⟩ := f
    refine (mirrors_ofExcept (tables.remove head.1)).bind fun _ _ removed => ?_
    cases removed with
    | some related =>
      exact (mirrors_putTable paired related.2).bind fun _ _ _ => .pure (.some head)
    | none => exact .pure (.some head)

theorem mirrors_dictPopItem (paired : p.dicts a b) :
    MethodsMirror p (dictPopItem a) (dictPopItem b) := by
  refine mirrors_fixed _ _ fun vs ws args => mirrors_named _ ?_
  refine (mirrors_popFirst (.dict paired)).bind fun _ _ first => ?_
  cases first with
  | some entry => exact .pure (.tuple (.cons entry.1 (.cons entry.2 .nil)))
  | none => exact .throw _

theorem mirrors_dictSetDefault (paired : p.dicts a b) :
    MethodsMirror p (dictSetDefault a) (dictSetDefault b) := by
  intro vs ws args
  have value := getD_of_rel (rel_getElem? args 1) .null
  refine mirrors_checked _ _ _ args (mirrors_named _ ?_)
  refine (Act.mirrors_lookup paired (headD_alike args)).bind fun _ _ found => ?_
  cases found with
  | some related => exact .pure related
  | none =>
    exact (mirrors_store paired (headD_alike args) value).bind fun _ _ _ => .pure value

theorem isDict_alike (paired : p.dicts a b) (h : Value.Alike p v w) : isDict a v = isDict b w := by
  cases h with
  | dict paired' => exact beq_of_paired p.dicts_unique paired' paired
  | _ => rfl

/-- Pairs are stored one by one. That a pair is the dict itself, which cannot change while it is gone
through, is seen on both sides or on none. -/
theorem mirrors_putPairs (paired : p.dicts a b) (locked : Bool) (i : Nat)
    (pairs : Forall₂ (Value.Alike p) vs ws) :
    Mirrors p Eq (putPairs a locked i vs) (putPairs b locked i ws) := by
  induction pairs generalizing locked i with
  | nil => exact .pure rfl
  | @cons pair pair' _ _ head tail ih =>
    unfold putPairs
    dsimp only
    rw [isDict_alike paired head, head.type]
    refine .get_bind fun s t stores => ?_
    -- whether it is a pair is seen from the number of its items, which is the same on both sides
    have items := stores.items? head
    generalize s.items? pair = x at items ⊢
    generalize t.items? pair' = y at items ⊢
    cases items with
    | none => exact .throw _
    | some related =>
      have lengths := related.length_eq
      cases related with
      | nil => exact .throw _
      | cons key rest =>
        cases rest with
        | nil => exact .throw _
        | cons value rest =>
          cases rest with
          | nil =>
            exact .ite (.throw _) ((mirrors_store paired key value).bind fun _ _ _ => ih _ _)
          | cons third rest =>
            change Mirrors p Eq (complain _) (complain _)
            rw [lengths]
            exact .throw _

theorem mirrors_putPairsOf (paired : p.dicts a b) (h : Value.Alike p v w) :
    Mirrors p (Value.Alike p) (putPairsOf a v) (putPairsOf b w) := by
  unfold putPairsOf
  rw [h.type]
  refine .get_bind fun s t stores => ?_
  have items := stores.items? h
  generalize s.items? v = x at items ⊢
  generalize t.items? w = y at items ⊢
  cases items with
  | none => exact .throw _
  | some pairs => exact (mirrors_putPairs paired false 0 pairs).bind fun _ _ _ => .pure .null

theorem dictUpdate_many (r : Nat) (x y : Value) (rest : List Value) :
    dictUpdate r (x :: y :: rest) =
      complain s!"update: got {(x :: y :: rest).length} arguments, want at most 1" := by
  cases x <;> rfl

theorem mirrors_dictUpdate (paired : p.dicts a b) :
    MethodsMirror p (dictUpdate a) (dictUpdate b) := by
  intro vs ws args
  have lengths := args.length_eq
  cases args with
  | nil => exact .pure .null
  | cons head rest =>
    have pairs := mirrors_named "update" (mirrors_putPairsOf paired head)
    cases rest with
    | nil =>
      cases head with
      | dict paired' =>
        refine mirrors_named _ ((mirrors_dictEntries paired').bind fun _ _ more => ?_)
        exact (mirrors_alter (.dict paired) fun _ _ tables => tables.putAll more).bind
          fun _ _ _ => .pure .null
      | _ => exact pairs
    | cons second rest =>
      rw [dictUpdate_many, dictUpdate_many, lengths]
      exact .throw _

/-- **The methods of two dicts that are paired mirror each other.** -/
theorem dictMethods_alike (paired : p.dicts a b) :
    Forall₂ (fun m n => m.1 = n.1 ∧ MethodsMirror p m.2 n.2) (dictMethods a) (dictMethods b) := by
  have entries := mirrors_dictEntries paired
  refine .cons ⟨rfl, ?_⟩ (.cons ⟨rfl, mirrors_dictGet paired⟩ (.cons ⟨rfl, ?_⟩ (.cons ⟨rfl, ?_⟩
    (.cons ⟨rfl, mirrors_dictPop paired⟩ (.cons ⟨rfl, mirrors_dictPopItem paired⟩
      (.cons ⟨rfl, mirrors_dictSetDefault paired⟩ (.cons ⟨rfl, mirrors_dictUpdate paired⟩
        (.cons ⟨rfl, ?_⟩ .nil))))))))
  · exact mirrors_fixed _ _ fun _ _ _ => (mirrors_clear (.dict paired)).bind fun _ _ _ => .pure .null
  · exact mirrors_fixed _ _ fun _ _ _ => entries.bind fun _ _ entries => mirrors_newList
      (rel_map (fun _ _ pair => .tuple (.cons pair.1 (.cons pair.2 .nil))) entries)
  · exact mirrors_fixed _ _ fun _ _ _ => entries.bind fun _ _ entries =>
      mirrors_newList entries.keys
  · exact mirrors_fixed _ _ fun _ _ _ => entries.bind fun _ _ entries =>
      mirrors_newList entries.values

/-! ## Sets -/

theorem mirrors_setItem (name : String) {run run' : Value → Act Unit}
    (h : ∀ v w, Value.Alike p v w → Mirrors p Eq (run v) (run' w)) :
    MethodsMirror p (setItem name run) (setItem name run') :=
  mirrors_fixed _ _ fun _ _ args => (mirrors_named _ (h _ _ (headD_alike args))).bind
    fun _ _ _ => .pure .null

/-- The methods of sets that take another container: without one they come to nothing on both sides. -/
theorem mirrors_setWith (paired : p.sets a b) (name : String)
    {make make' : Table → List Value → Act Value}
    (h : ∀ t u, Table.Alike p t u → ∀ vs ws, Forall₂ (Value.Alike p) vs ws →
      Mirrors p (Value.Alike p) (make t vs) (make' u ws)) :
    MethodsMirror p (setWith a name make) (setWith b name make') := by
  intro vs ws args
  refine mirrors_checked _ _ _ args ?_
  cases args with
  | nil => exact .throw _
  | cons head tail =>
    refine .get_bind fun s t stores => mirrors_named _ ?_
    exact (mirrors_table (.set paired)).bind fun t u tables =>
      h t u tables _ _ (getD_of_rel (stores.items? head) .nil)

theorem mirrors_setMake (paired : p.sets a b) (name : String)
    {make : Table → List Value → Except Failure Table}
    (h : ∀ t u, Table.Alike p t u → ∀ vs ws, Forall₂ (Value.Alike p) vs ws →
      Both (Table.Alike p) (make t vs) (make u ws)) :
    MethodsMirror p (setMake a name make) (setMake b name make) :=
  mirrors_setWith paired name fun t u tables vs ws items =>
    (mirrors_ofExcept (h t u tables vs ws items)).bind fun _ _ made => mirrors_addSet made

theorem mirrors_setAsk (paired : p.sets a b) (name : String)
    {ask : Table → List Value → Except Failure Bool}
    (h : ∀ t u, Table.Alike p t u → ∀ vs ws, Forall₂ (Value.Alike p) vs ws → ask t vs = ask u ws) :
    MethodsMirror p (setAsk a name ask) (setAsk b name ask) := by
  refine mirrors_setWith paired name fun t u tables vs ws items => ?_
  rw [h t u tables vs ws items]
  exact (mirrors_check _).bind_eq fun answer => .pure (.bool answer)

theorem mirrors_setAdd (paired : p.sets a b) : MethodsMirror p (setAdd a) (setAdd b) := by
  refine mirrors_setItem _ fun v w item => ?_
  refine (mirrors_table (.set paired)).bind fun t u tables => ?_
  rw [tables.has item]
  exact (mirrors_check _).bind_eq fun isThere =>
    .ite (mirrors_alter (.set paired) fun _ _ tables => tables.add item) (.pure rfl)

theorem mirrors_setTake (paired : p.sets a b) (item : Value.Alike p v w) :
    Mirrors p Eq (setTake a v) (setTake b w) := by
  refine (mirrors_table (.set paired)).bind fun t u tables =>
    (mirrors_ofExcept (tables.remove item)).bind fun _ _ removed => ?_
  cases removed with
  | some related => exact (mirrors_putTable (.set paired) related.2).bind fun _ _ _ => .pure rfl
  | none => exact .pure rfl

theorem mirrors_setDiscard (paired : p.sets a b) :
    MethodsMirror p (setDiscard a) (setDiscard b) := by
  refine mirrors_setItem _ fun v w item => ?_
  refine (mirrors_table (.set paired)).bind fun t u tables => ?_
  rw [tables.has item]
  exact (mirrors_check _).bind_eq fun isThere =>
    .ite ((mirrors_setTake paired item).map fun _ _ _ => rfl) (.pure rfl)

theorem mirrors_setRemove (paired : p.sets a b) : MethodsMirror p (setRemove a) (setRemove b) :=
  mirrors_setItem _ fun _ _ item => (mirrors_setTake paired item).bind_eq fun _ =>
    .ite (.throw _) (.pure rfl)

theorem mirrors_setPop (paired : p.sets a b) : MethodsMirror p (setPop a) (setPop b) := by
  refine mirrors_fixed _ _ fun vs ws args => mirrors_named _ ?_
  refine (mirrors_popFirst (.set paired)).bind fun _ _ first => ?_
  cases first with
  | some entry => exact .pure entry.1
  | none => exact .throw _

theorem mirrors_itemsAt (i : Nat) (h : Value.Alike p v w) :
    Mirrors p (Forall₂ (Value.Alike p)) (itemsAt i v) (itemsAt i w) := by
  unfold itemsAt
  rw [h.type]
  refine .get_bind fun s t stores => ?_
  have items := stores.items? h
  generalize s.items? v = x at items ⊢
  generalize t.items? w = y at items ⊢
  cases items with
  | none => exact .throw _
  | some related => exact .pure related

/-- A union takes any number of containers, and fails at the first item that has no hash. -/
theorem mirrors_united {t u : Table} (tables : Table.Alike p t u) (i : Nat)
    (args : Forall₂ (Value.Alike p) vs ws) :
    Mirrors p (Table.Alike p) (united t i vs) (united u i ws) := by
  induction args generalizing t u i with
  | nil => exact .pure tables
  | cons head tail ih =>
    refine (mirrors_itemsAt i head).bind fun items items' hitems => ?_
    obtain ⟨t₁, u₁, failure, here, there, alike⟩ := (tables.addAll hitems).cases
    rw [here, there]
    cases failure with
    | none => exact ih alike (i + 1)
    | some f => exact .throw f

theorem isSet_alike (paired : p.sets a b) (h : Value.Alike p v w) : isSet a v = isSet b w := by
  cases h with
  | set paired' => exact beq_of_paired p.sets_unique paired' paired
  | _ => rfl

theorem mirrors_addContainers (paired : p.sets a b) (i : Nat) (args : Forall₂ (Value.Alike p) vs ws) :
    Mirrors p Eq (addContainers a i vs) (addContainers b i ws) := by
  induction args generalizing i with
  | nil => exact .pure rfl
  | cons head tail ih =>
    refine (mirrors_itemsAt i head).bind fun items items' hitems => ?_
    rw [isSet_alike paired head, isEmpty_of_rel hitems]
    exact .ite (.throw _) ((mirrors_alter (.set paired) fun _ _ tables =>
      tables.addAll hitems).bind fun _ _ _ => ih (i + 1))

/-- **The methods of two sets that are paired mirror each other.** -/
theorem setMethods_alike (paired : p.sets a b) :
    Forall₂ (fun m n => m.1 = n.1 ∧ MethodsMirror p m.2 n.2) (setMethods a) (setMethods b) := by
  refine .cons ⟨rfl, mirrors_setAdd paired⟩ (.cons ⟨rfl, ?_⟩ (.cons ⟨rfl, ?_⟩
    (.cons ⟨rfl, mirrors_setDiscard paired⟩ (.cons ⟨rfl, ?_⟩ (.cons ⟨rfl, ?_⟩ (.cons ⟨rfl, ?_⟩
      (.cons ⟨rfl, mirrors_setPop paired⟩ (.cons ⟨rfl, mirrors_setRemove paired⟩
        (.cons ⟨rfl, ?_⟩ (.cons ⟨rfl, ?_⟩ (.cons ⟨rfl, ?_⟩ .nil)))))))))))
  · exact mirrors_fixed _ _ fun _ _ _ => (mirrors_clear (.set paired)).bind fun _ _ _ => .pure .null
  · exact mirrors_setMake paired _ fun _ _ tables _ _ items => tables.copy.without items
  · exact mirrors_setMake paired _ fun _ _ tables _ _ items =>
      tables.common (Table.filled_alike .nil) items
  · exact mirrors_setAsk paired _ fun _ _ tables _ _ items => tables.isWithin items
  · exact mirrors_setAsk paired _ fun _ _ tables _ _ items => tables.covers items
  · exact mirrors_setMake paired _ fun _ _ tables _ _ items => tables.copy.toggled items
  · exact fun vs ws args => mirrors_named _ ((mirrors_table (.set paired)).bind fun _ _ tables =>
      (mirrors_united tables.copy 1 args).bind fun _ _ made => mirrors_addSet made)
  · exact fun vs ws args => mirrors_named _ ((mirrors_addContainers paired 1 args).bind
      fun _ _ _ => .pure .null)

/-! ## All -/

/-- Values that are alike have methods of the same names, which mirror each other. -/
def Methods.Mirror (p : Pairing) (methods : Methods) : Prop :=
  ∀ v w, Value.Alike p v w → ∀ name, Option.Rel (MethodsMirror p) (methods v name) (methods w name)

theorem method?_mirror : Methods.Mirror p method? := by
  intro v w h name
  cases h with
  | list paired => exact lookup_rel (listMethods_alike paired) name
  | dict paired => exact lookup_rel (dictMethods_alike paired) name
  | set paired => exact lookup_rel (setMethods_alike paired) name
  | _ => exact .none

end Container
end Stencil
