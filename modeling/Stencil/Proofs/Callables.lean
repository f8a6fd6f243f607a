import Stencil.Proofs.Accord

/-!
# The callables of the language

Every filter, function and test of the language is in every accord (`Language.core_accords`): for
arguments that are alike it comes to results that are related in the same way.
-/

namespace Stencil

open List

variable {p : Pairing}

/-- A filter, function or test that is in a relation, for values that are alike. -/
def Callable.Accords (A : Accord p) (c : Callable) : Prop :=
  ∀ mild strict : Scope, mild.Milder A strict → ∀ {vs ws : List Value}
    {named named' : List (String × Value)}, Forall₂ (Value.Alike p) vs ws →
    Forall₂ (Value.NamedAlike p) named named' →
      Act.Accords A (Option.Rel (Value.Alike p)) (c strict vs named) (c mild ws named')

namespace Callable

abbrev GivenAlike (p : Pairing) (g h : Given) : Prop := Forall₂ (Option.Rel (Value.Alike p)) g h

variable {A : Accord p} {g h : Given}

theorem join_alike (given : GivenAlike p g h) (i : Nat) :
    Option.Rel (Value.Alike p) (g[i]?).join (h[i]?).join := by
  have found := rel_getElem? given i
  generalize g[i]? = x at found ⊢
  generalize h[i]? = y at found ⊢
  cases found with
  | some related => exact related
  | none => exact .none

theorem value_alike (given : GivenAlike p g h) (i : Nat) {v w : Value} (default : Value.Alike p v w) :
    Value.Alike p (g.value i v) (h.value i w) :=
  getD_of_rel (join_alike given i) default

theorem text_alike (given : GivenAlike p g h) (i : Nat) (default : String) :
    g.text i default = h.text i default := by
  have found := join_alike given i
  unfold Given.text
  generalize (g[i]?).join = x at found ⊢
  generalize (h[i]?).join = y at found ⊢
  cases found with
  | none => rfl
  | some related => cases related <;> rfl

theorem int_alike (given : GivenAlike p g h) (i : Nat) (default : Int) :
    g.int i default = h.int i default := by
  have found := join_alike given i
  unfold Given.int
  generalize (g[i]?).join = x at found ⊢
  generalize (h[i]?).join = y at found ⊢
  cases found with
  | none => rfl
  | some related => cases related <;> rfl

/-- A callable accords if what it does with alike arguments does. -/
theorem accords_make (callee : String) (parameters : List Arguments.Parameter)
    {run : Scope → Given → Act Value}
    (hrun : ∀ {mild strict : Scope}, mild.Milder A strict → ∀ g h, GivenAlike p g h →
      Act.Accords A (Value.Alike p) (run strict g) (run mild h)) :
    Callable.Accords A (make callee parameters run) := by
  intro mild strict milder vs ws named named' args hnamed
  unfold make
  rcases (Arguments.bind_alike callee parameters args hnamed).cases with
    ⟨g, h, here, there, given⟩ | ⟨f, here, there⟩
  · rw [here, there]
    exact (hrun milder g h given).bind fun _ _ value => .pure (.some value)
  · rw [here, there]
    exact .throw f

theorem accords_ofValue (callee : String) {run : Value → Act Value}
    (hrun : ∀ v w, Value.Alike p v w → Act.Accords A (Value.Alike p) (run v) (run w)) :
    Callable.Accords A (ofValue callee run) :=
  accords_make _ _ fun _ _ _ given => hrun _ _ (value_alike given 0 .null)

end Callable

namespace Language

open Act (Accords)
open Callable (accords_make accords_ofValue value_alike text_alike int_alike)

variable {A : Accord p} {v w : Value} {vs ws : List Value}

/-! ## Filters -/

theorem accords_onText (name : String) (f : String → String) :
    Callable.Accords A (onText name f) :=
  accords_ofValue name fun _ _ value => (Act.accords_print value).bind_eq fun _ => .pure (.text _)

theorem accords_printed? (h : Value.Alike p v w) : Accords A Eq (printed? v) (printed? w) := by
  unfold printed?
  rw [h.isNull]
  rw [map_eq_pure_bind, map_eq_pure_bind]
  exact .ite (.pure rfl) ((Act.accords_print h).bind_eq fun _ => .pure rfl)

theorem accords_trim : Callable.Accords A trim := by
  refine accords_make _ _ fun _ g h given => ?_
  rw [text_alike given]
  refine (accords_printed? (value_alike given 1 .null)).bind_eq fun mask =>
    (Act.accords_print (value_alike given 0 .null)).bind_eq fun shown => ?_
  exact .ite (.pure (.text _)) (.ite (.pure (.text _)) (.ite (.pure (.text _)) (.throw _)))

theorem accords_escape : Callable.Accords A escape := by
  refine accords_make _ _ fun _ g h given => ?_
  rw [text_alike given]
  refine (Act.accords_print (value_alike given 0 .null)).bind_eq fun shown => ?_
  exact .ite (.pure (.text _)) (.ite (.pure (.text _)) (.throw _))

theorem accords_default : Callable.Accords A Language.default := by
  refine accords_make _ _ fun _ g h given => .get_bind fun s t stores => ?_
  have value := value_alike given 0 .null
  rw [stores.isEmpty value]
  refine .pure ?_
  split
  · exact value_alike given 1 (.text "")
  · exact value

theorem mapM_accords {α : Type} {act : Value → Act α}
    (one : ∀ {v w : Value}, Value.Alike p v w → Accords A Eq (act v) (act w))
    (items : Forall₂ (Value.Alike p) vs ws) : Accords A Eq (vs.mapM act) (ws.mapM act) := by
  induction items with
  | nil =>
    rw [mapM_nil]
    exact .pure rfl
  | cons head tail ih =>
    rw [mapM_cons, mapM_cons]
    exact (one head).bind_eq fun _ => ih.bind_eq fun _ => .pure rfl

theorem accords_join : Callable.Accords A join := by
  refine accords_make _ _ fun _ g h given => ?_
  have value := value_alike given 0 .null
  dsimp only
  rw [text_alike given, value.isContainer]
  refine .ite ((Act.accords_print value).bind_eq fun _ => .pure (.text _)) ?_
  refine (Act.accords_valuesOf value).bind fun _ _ items =>
    (mapM_accords (fun head => Act.accords_print head) items).bind_eq fun _ => ?_
  exact (accords_printed? (value_alike given 2 .null)).bind_eq fun _ => .pure (.text _)

theorem accords_length : Callable.Accords A length := by
  refine accords_ofValue _ fun v w value => ?_
  rw [value.isNull]
  refine .ite (.pure (.int 0)) (.get_bind fun s t stores => ?_)
  have counted : s.count? v = t.count? w := by
    cases value with
    | list paired => exact congrArg some (stores.list paired).length_eq
    | tuple items => exact congrArg some items.length_eq
    | dict paired => exact congrArg some (stores.dict paired).length_eq
    | _ => rfl
  rw [counted]
  cases t.count? w with
  | some n => exact .pure (.int n)
  | none => exact (Act.accords_print value).bind_eq fun _ => .pure (.int _)

theorem accords_keys : Callable.Accords A keys :=
  accords_ofValue _ fun _ _ value => .get_bind fun _ _ stores =>
    Act.accords_newList (rel_map (fun _ _ pair => pair.1) (stores.pairs value))

theorem accords_pick (name : String) (chars : List Char → Option Char)
    {items : List Value → Option Value}
    (hitems : ∀ vs ws, Forall₂ (Value.Alike p) vs ws →
      Option.Rel (Value.Alike p) (items vs) (items ws)) :
    Callable.Accords A (pick name chars items) := by
  refine accords_ofValue _ fun v w value => ?_
  have picked := (Act.accords_valuesOf value).bind fun vs ws items =>
    Accords.pure (A := A) (getD_of_rel (hitems vs ws items) .null)
  cases value with
  | text s => exact .pure (.text _)
  | _ => exact picked

theorem getLast?_rel (items : Forall₂ (Value.Alike p) vs ws) :
    Option.Rel (Value.Alike p) vs.getLast? ws.getLast? := by
  rw [getLast?_eq_getElem?, getLast?_eq_getElem?, items.length_eq]
  exact rel_getElem? items _

theorem head?_rel (items : Forall₂ (Value.Alike p) vs ws) :
    Option.Rel (Value.Alike p) vs.head? ws.head? := by
  cases items with
  | nil => exact .none
  | cons head tail => exact .some head

theorem accords_numberFor (name : String) (h : Value.Alike p v w) :
    Accords A Eq (numberFor name v) (numberFor name w) := by
  unfold numberFor
  rw [h.toNumber?, h.type]
  cases w.toNumber? with
  | some n => exact .pure rfl
  | none => exact .throw _

theorem accords_abs : Callable.Accords A abs := by
  refine accords_ofValue _ fun v w value => (accords_numberFor _ value).bind_eq fun n => ?_
  cases n with
  | int i => exact .pure (.int _)
  | float f => exact .pure (.float _)

theorem accords_round : Callable.Accords A round := by
  refine accords_make _ _ fun _ g h given => ?_
  rw [text_alike given, int_alike given]
  refine (accords_numberFor _ (value_alike given 0 .null)).bind_eq fun n => ?_
  exact .ite (.pure (.float _)) (.ite (.pure (.float _)) (.ite (.pure (.float _)) (.throw _)))

theorem accords_jsonEncode : Callable.Accords A jsonEncode := by
  refine accords_make _ _ fun {mild strict} milder g h given =>
    (Act.accords_toPlain (value_alike given 0 .null)).bind_eq fun d => ?_
  rw [milder.host]
  cases Json.encode strict.host d with
  | ok s => exact .pure (.text s)
  | error f => exact .throw _

theorem accords_dumped : Callable.Accords A dumped := by
  refine accords_make _ _ fun milder _ _ given =>
    (Act.accords_toPlain (value_alike given 0 .null)).bind_eq fun _ => ?_
  rw [milder.host]
  exact .pure (.text _)

/-! ## Functions -/

theorem accords_rangeFunction : Callable.Accords A rangeFunction :=
  accords_make _ _ fun milder _ _ given => milder.range (value_alike given 0 .null)
    (value_alike given 1 .null) (value_alike given 2 (.int 1))

theorem accords_dumpFunction : Callable.Accords A dumpFunction := by
  intro mild strict milder vs ws named named' args hnamed
  unfold dumpFunction
  rw [isEmpty_of_rel hnamed, milder.host, milder.debug]
  exact .ite (.throw _) (.ite (.pure (.some (.text "")))
    ((mapM_accords (fun head => Act.accords_toPlain head) args).bind_eq fun _ => .pure (.some (.text _))))

theorem accords_bestOf (better : Relation) (best : Value.Alike p v w)
    (items : Forall₂ (Value.Alike p) vs ws) :
    Accords A (Value.Alike p) (bestOf better v vs) (bestOf better w ws) := by
  induction items generalizing v w with
  | nil => exact .pure best
  | cons head tail ih =>
    exact (Act.accords_compare better head best).bind_eq fun _ => .ite (ih head) (ih best)

theorem accords_candidates (args : Forall₂ (Value.Alike p) vs ws) :
    Accords A (Forall₂ (Value.Alike p)) (candidates vs) (candidates ws) := by
  cases args with
  | nil => exact .pure .nil
  | cons head tail =>
    cases tail with
    | nil =>
      unfold candidates
      dsimp only
      rw [head.isContainer]
      exact .ite (Act.accords_valuesOf head) (.pure (.cons head .nil))
    | cons second rest => exact .pure (.cons head (.cons second rest))

theorem accords_extremum (name : String) (better : Relation) :
    Callable.Accords A (extremum name better) := by
  intro mild strict _ vs ws named named' args hnamed
  unfold extremum
  rw [isEmpty_of_rel hnamed]
  refine .ite ((accords_candidates args).bind fun _ _ items => ?_) (.throw _)
  cases items with
  | nil => exact .throw _
  | cons head tail =>
    exact A.rethrow _ ((accords_bestOf better head tail).bind fun _ _ best => .pure (.some best))

/-! ## Tests -/

theorem accords_testOf (name : String) {q : Store → Value → Bool}
    (hq : ∀ s t, Store.Alike p s t → ∀ v w, Value.Alike p v w → q s v = q t w) :
    Callable.Accords A (testOf name q) := by
  refine accords_ofValue name fun v w value => .get_bind fun s t stores => ?_
  rw [hq s t stores v w value]
  exact .pure (.bool _)

theorem accords_integerFor (name : String) (h : Value.Alike p v w) :
    Accords A Eq (integerFor name v) (integerFor name w) := by
  unfold integerFor
  rw [h.toNumber?, h.type]
  cases w.toNumber? with
  | none => exact .throw _
  | some n => cases n <;> exact .pure rfl

theorem accords_parity (name : String) (rest : Nat) : Callable.Accords A (parity name rest) :=
  accords_ofValue _ fun _ _ value => (accords_integerFor _ value).bind_eq fun _ => .pure (.bool _)

theorem accords_divisibleBy : Callable.Accords A divisibleBy :=
  accords_make _ _ fun _ _ _ given =>
    (accords_integerFor _ (value_alike given 0 .null)).bind_eq fun _ =>
      (accords_integerFor _ (value_alike given 1 .null)).bind_eq fun _ =>
        .ite (.throw _) (.pure (.bool _))

theorem accords_identical {x y : Value} (hvw : Value.Alike p v w) (hxy : Value.Alike p x y) :
    Accords A Eq (identical v x) (identical w y) := by
  have compared := fun s t (stores : Store.Alike p s t) => stores.compare .eq hvw hxy
  unfold identical
  rw [hvw.type, hxy.type]
  refine .ite (.pure rfl) ?_
  cases hvw <;> cases hxy
  case list.list paired _ _ paired' =>
    exact .pure (beq_of_paired p.lists_unique paired paired')
  case dict.dict paired _ _ paired' =>
    exact .pure (beq_of_paired p.dicts_unique paired paired')
  case set.set paired _ _ paired' =>
    exact .pure (beq_of_paired p.sets_unique paired paired')
  case object.object paired _ _ _ _ paired' =>
    exact .pure (beq_of_paired p.handles_unique paired paired')
  case tuple.tuple => exact .throw _
  -- All other pairs of values are compared.
  all_goals
    refine .get_bind fun s t stores => ?_
    rw [compared s t stores]
    generalize t.compare .eq _ _ = answer
    cases answer <;> exact .pure rfl

theorem accords_sameAs : Callable.Accords A sameAs :=
  accords_make _ _ fun _ _ _ given =>
    (accords_identical (value_alike given 0 .null) (value_alike given 1 .null)).bind_eq
      fun _ => .pure (.bool _)

/-- **The filters, functions and tests of the language are in every accord.** -/
theorem core_accords : Extension.core.All (Callable.Accords A) where
  filters := by
    simp only [Extension.core, filters, forall_mem_cons]
    exact ⟨accords_onText _ _, accords_onText _ _, accords_onText _ _, accords_onText _ _, accords_trim,
      accords_default, accords_join, accords_length, accords_keys,
      accords_pick _ _ fun _ _ => head?_rel, accords_pick _ _ fun _ _ => getLast?_rel, accords_abs,
      accords_round, accords_escape, accords_escape, accords_ofValue _ fun _ _ value => .pure value,
      accords_jsonEncode, accords_dumped, forall_mem_nil _⟩
  functions := by
    simp only [Extension.core, functions, forall_mem_cons]
    exact ⟨accords_rangeFunction, accords_dumpFunction, accords_extremum _ _, accords_extremum _ _,
      forall_mem_nil _⟩
  tests := by
    have isNull : ∀ name, Callable.Accords A (testOf name fun _ v => v.isNull) := fun name =>
      accords_testOf name fun _ _ _ _ _ value => value.isNull
    simp only [Extension.core, tests, forall_mem_cons]
    exact ⟨accords_testOf _ fun _ _ _ _ _ value => by rw [value.isNull], isNull _, isNull _,
      accords_testOf _ fun _ _ stores _ _ value => stores.isEmpty value, accords_parity _ _,
      accords_parity _ _, accords_testOf _ fun _ _ _ _ _ value => value.isContainer,
      accords_divisibleBy, accords_sameAs, forall_mem_nil _⟩

end Language
end Stencil
