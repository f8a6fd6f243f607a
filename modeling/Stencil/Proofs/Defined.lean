import Stencil.Proofs.Guarded
import Stencil.Proofs.Loops

/-!
# Whether a variable or attribute is defined

A `Lookup` is a variable followed by any number of accesses to items, attributes and methods, with
constants for keys and arguments. It is evaluated in three ways: by itself it is strict, in front of
an access that may fail it is lenient, and under the test `defined` its last access is a question.
-/

namespace Stencil

open Step List Program Eval
open Listing (Care)
open Node (Access)

/-! ## Steps that hardly ever fail -/

namespace Step

variable {ε σ α β : Type} {P : ε → Prop}

def FailsIn (P : ε → Prop) (x : EStateM ε σ α) : Prop := ∀ s e s', x s = .error e s' → P e

theorem FailsIn.pure (a : α) : FailsIn P (Pure.pure a : EStateM ε σ α) := fun s e s' h => by cases h

theorem FailsIn.throw {e : ε} (h : P e) : FailsIn P (throw e : EStateM ε σ α) := by
  intro s e' s' failed
  cases failed
  exact h

theorem FailsIn.get : FailsIn P (MonadState.get : EStateM ε σ σ) := fun s e s' h => by cases h

theorem FailsIn.bind {x : EStateM ε σ α} {f : α → EStateM ε σ β} (hx : FailsIn P x)
    (hf : ∀ a, FailsIn P (f a)) : FailsIn P (x >>= f) := by
  intro s e s' h
  rcases bind_error.1 h with h | ⟨a, s₁, -, h⟩
  · exact hx s e s' h
  · exact hf a s₁ e s' h

end Step

section Total

variable {P : Failure → Prop}

theorem Act.failsIn_newList (items : List Value) : FailsIn P (Act.newList items) :=
  fun s e s' h => by cases h

mutual

theorem Plain.failsIn_toValue (p : Plain) : FailsIn P p.toValue := by
  cases p with
  | list element items =>
    exact (failsIn_toValues items).bind fun _ => Act.failsIn_newList _
  | unset => exact Act.failsIn_newList _
  | map keys values =>
    exact (failsIn_toValues keys).bind fun _ => (failsIn_toValues values).bind fun _ =>
      fun s e s' h => by cases h
  | object o => exact fun s e s' h => by cases h
  | record o => exact fun s e s' h => by cases h
  | _ => exact .pure _

theorem Plain.failsIn_toValues (ps : List Plain) : FailsIn P (Plain.toValues ps) := by
  cases ps with
  | nil => exact .pure _
  | cons p ps =>
    exact (failsIn_toValue p).bind fun _ => (failsIn_toValues ps).bind fun _ => .pure _

end

theorem Act.failsIn_ofResults (results : List Plain) : FailsIn P (Act.ofResults results) := by
  unfold Act.ofResults
  split
  · exact .pure _
  · exact Plain.failsIn_toValue _
  · exact (Plain.failsIn_toValues _).bind fun _ => .pure _

end Total

/-! ## Searches -/

namespace Attribute

/-- A failure that no mode makes up for. -/
abbrev Stuck (f : Failure) : Prop := f.isStuck = true

theorem failsIn_ofMethod (h : Host) (o : Object) (key : String) (args : List Datum)
    (otherwise : Raised) : FailsIn Stuck (ofMethod h o key args otherwise) := by
  unfold ofMethod
  split
  · exact .throw rfl
  · split
    · exact .pure _
    · split
      · exact (Act.failsIn_ofResults _).bind fun _ => .pure _
      · exact .pure _

theorem failsIn_ofObject (h : Host) (o : Object) (key : String) (args : List Datum)
    (access : Access) (otherwise : Raised) :
    FailsIn Stuck (ofObject h o key args access otherwise) := by
  unfold ofObject
  split
  · exact failsIn_ofMethod _ _ _ _ _
  · split
    · exact (Plain.failsIn_toValue _).bind fun _ => .pure _
    · exact .throw rfl
  · exact failsIn_ofMethod _ _ _ _ _

theorem failsIn_print (v : Value) : FailsIn Stuck (Act.print v) := by
  intro s e s' failed
  rw [Act.print_eq] at failed
  split at failed
  · cases failed
    rfl
  · cases failed

theorem failsIn_ofContainer (methods : Container.Methods) (v : Value) (key : String)
    (args : List Value) (access : Access) (otherwise : Raised) :
    FailsIn Stuck (ofContainer methods v key args access otherwise) := by
  unfold ofContainer
  split
  · exact .pure _
  · split
    · intro s e s' h
      obtain ⟨f, s₁, -, thrown⟩ := tryCatch_error.1 h
      split at thrown
      · next stuck => cases thrown; exact stuck
      · cases thrown
    · split
      · exact fun s e s' h => by cases h
      · exact .pure _

theorem failsIn_searchMember (scope : Scope) (object : Value) (key : String) (args : List Value)
    (access : Access) : FailsIn Stuck (searchMember scope object key args access) := by
  unfold searchMember
  dsimp only
  split
  · exact .pure _
  · split
    · exact FailsIn.get.bind fun _ => failsIn_ofObject _ _ _ _ _ _
    · exact .pure _
    · exact failsIn_ofContainer _ _ _ _ _ _

theorem failsIn_search (scope : Scope) (object item : Value) (args : List Value)
    (access : Access) : FailsIn Stuck (search scope object item args access) := by
  refine (failsIn_print item).bind fun key => FailsIn.get.bind fun s => ?_
  split
  · exact failsIn_searchMember _ _ _ _ _
  · split
    · exact .pure _
    · split
      · exact .pure _
      · exact failsIn_searchMember _ _ _ _ _

/-- The failures that are no failed searches: of a method, or where nothing can come of a step. -/
def Breaks : Failure → Prop
  | .raised (.thrownByMethod _ _) _ _ _ => True
  | .stuck => True
  | _ => False

theorem breaks_of_stuck {f : Failure} (h : Stuck f) : Breaks f := by
  cases f with
  | stuck => trivial
  | _ => cases h

section Modes

variable {scope : Scope} {object item v : Value} {args : List Value} {access : Access} {line : Int}
  {s s' : Store}

theorem get_lenient_of_ok
    (found : get scope object item args access .strict line s = .ok v s') :
    get scope object item args access .lenient line s = .ok v s' := by
  obtain ⟨result, s₁, searched, taken⟩ := bind_ok.1 found
  unfold get
  rw [bind_of_ok searched]
  cases result with
  | value _ => exact taken
  | failed | missing => cases taken

theorem get_lenient_of_error {f : Failure}
    (failed : get scope object item args access .strict line s = .error f s') (kind : ¬Breaks f) :
    get scope object item args access .lenient line s = .ok .null s' := by
  rcases bind_error.1 failed with stuck | ⟨result, s₁, searched, taken⟩
  · exact absurd (breaks_of_stuck (failsIn_search _ _ _ _ _ _ _ _ stuck)) kind
  · unfold get
    rw [bind_of_ok searched]
    cases result with
    | value _ => cases taken
    | failed _ _ => cases taken; exact absurd trivial kind
    | missing _ => cases taken; rfl

/-- The question whether there is an attribute has an answer, which is right. -/
theorem get_probe (unstuck : ∀ f s', get scope object item args access .strict line s = .error f s' →
      ¬Stuck f) :
    ∃ b s', get scope object item args access .probe line s = .ok (.bool b) s' ∧
      (b = true ↔ ∃ v s', get scope object item args access .strict line s = .ok v s') := by
  cases searched : search scope object item args access s with
  | error f s₁ =>
    have stuck : get scope object item args access .strict line s = .error f s₁ :=
      bind_error.2 (.inl searched)
    exact absurd (failsIn_search _ _ _ _ _ _ _ _ searched) (unstuck f s₁ stuck)
  | ok result s₁ =>
    unfold get
    rw [bind_of_ok searched, bind_of_ok searched]
    cases result with
    | value v => exact ⟨true, s₁, rfl, fun _ => ⟨v, s₁, rfl⟩, fun _ => rfl⟩
    | failed | missing => exact ⟨false, s₁, rfl, by simp, fun ⟨_, _, h⟩ => by cases h⟩

theorem get_null (scope : Scope) (args : List Value) (access : Access) (line : Int)
    (ends : (s.view item).endless false = false) :
    get scope .null item args access .lenient line s = .ok .null s ∧
      get scope .null item args access .probe line s = .ok (.bool false) s := by
  have printed : Act.print item s = .ok (s.view item).print s := by
    rw [Act.print_eq, if_neg (Bool.eq_false_iff.1 ends)]
  have searched : ∃ reason, search scope .null item args access s = .ok (.missing reason) s := by
    rw [search, bind_of_ok printed]
    cases access <;> exact ⟨_, rfl⟩
  obtain ⟨reason, searched⟩ := searched
  rw [get, get, bind_of_ok searched, bind_of_ok searched]
  exact ⟨rfl, rfl⟩

end Modes

end Attribute

/-! ## Lookups -/

/-- The expressions whose value is fixed: constants and arrays of such expressions. -/
inductive Expr.Constant : Expr → Prop
  | value (c : Attr) : Constant (.constant c)
  | array {items : List Expr} (all : ∀ e ∈ items, Constant e) : Constant (.array items)

structure Literal where
  node : Node
  expr : Expr
  reads : (partOf node).expr = some expr
  constant : expr.Constant

/-- A variable, or an item, attribute or method of what is found by a lookup. -/
inductive Lookup
  | start (name : String) (line : Int)
  | step (object : Lookup) (item : Literal) (args : List Literal) (access : Access) (line : Int)

namespace Lookup

def node : Lookup → Node
  | start name line => .ofName name line
  | step object item args access line =>
    .ofAccess object.node item.node (.plain .arguments line (args.map (·.node))) access line

/-- The tree of the question whether a lookup is defined. -/
def isDefined (l : Lookup) (line : Int) : Node :=
  .ofCall .test "defined" line [l.node, .plain .arguments line []]

def expr : Lookup → Care → Expr
  | start name line, care =>
    if name == "_context" then .context
    else if care == .probed then .known name
    else .reading name (care == .lenient) line
  | step object item args access line, care =>
    .attr (object.expr care.below) item.expr (args.map (·.expr)) access (care == .probed)
      (care == .lenient) line

theorem mapM_expr (args : List Literal) :
    ((args.map (·.node)).map partOf).mapM Program.Part.expr = some (args.map (·.expr)) := by
  induction args with
  | nil => rfl
  | cons a args ih =>
    rw [map_cons, map_cons, mapM_cons, a.reads, ih]
    rfl

theorem exprWith_node (l : Lookup) (care : Care) :
    (partOf l.node).exprWith care = some (l.expr care) := by
  induction l generalizing care with
  | start name line =>
    show some (reading (.ofName name line) care) = _
    rfl
  | step object item args access line ih =>
    show access? _ (partOf object.node) (partOf item.node)
      (partOf (.plain .arguments line (args.map (·.node)))) care = _
    unfold access?
    rw [ih, item.reads]
    show ((partsOf (args.map (·.node))).mapM Program.Part.expr >>= _) = _
    rw [partsOf_eq_map, mapM_expr]
    cases access <;> rfl

end Lookup

/-! ## Values of constants -/

/-- A constant, or a list before a certain one whose items are constants and lists before it. -/
inductive Store.Founded (s : Store) : Nat → Value → Prop
  | constant {b : Nat} (c : Attr) : Founded s b c.toValue
  | list {b r : Nat} (before : r < b) (items : ∀ v ∈ s.list r, Founded s r v) : Founded s b (.list r)

namespace Store.Founded

variable {s t : Store} {b b' : Nat} {v : Value}

theorem mono (h : s.Founded b v) (further : b ≤ b') : s.Founded b' v := by
  cases h with
  | constant c => exact .constant c
  | list before items => exact .list (Nat.lt_of_lt_of_le before further) items

theorem grow (h : s.Founded b v) (there : b ≤ s.lists.size) (grown : s.Extends t) :
    t.Founded b v := by
  induction h with
  | constant c => exact .constant c
  | @list b r before items ih =>
    have old : r < s.lists.size := Nat.lt_of_lt_of_le before there
    refine .list before fun v hv => ?_
    rw [Store.list, Store.listCell, grown.lists r old] at hv
    exact ih v hv (Nat.le_of_lt old)

/-- A path from lists to the ones before them comes to an end. -/
theorem ends (h : s.Founded b v) {depth : Nat} {path : List Place} (enough : b < depth)
    (above : ∀ r, Place.list r ∈ path → b ≤ r) :
    (s.viewWithin depth path v).endless false = false := by
  induction h generalizing depth path with
  | constant c => cases depth <;> cases c <;> rfl
  | @list b r before items ih =>
    obtain ⟨depth, rfl⟩ : ∃ k, depth = k + 1 := ⟨depth - 1, by omega⟩
    have new : Place.list r ∉ path := fun old => absurd (above r old) (by omega)
    show (if Place.list r ∈ path then _ else _ : Datum).endless false = false
    rw [if_neg new]
    show Datum.someEndless false ((s.list r).map _) = false
    rw [Datum.someEndless_eq_any, any_map, any_eq_false]
    intro v hv
    refine Bool.eq_false_iff.1 (ih v hv (by omega) fun r' listed => ?_)
    rcases mem_cons.1 listed with same | old
    · cases same
      exact Nat.le_refl _
    · exact Nat.le_trans (Nat.le_of_lt before) (above r' old)

theorem view_ends (h : s.Founded s.lists.size v) : (s.view v).endless false = false :=
  h.ends (by rw [Store.size]; omega) fun _ no => absurd no not_mem_nil

end Store.Founded

/-! ## Evaluation -/

section Evaluation

variable {calls : Calls} {frame : Frame}

/-- The step makes new lists of constants and changes nothing else. -/
def Frame.Makes (frame : Frame) (calls : Calls) (e : Expr) : Prop :=
  ∀ w, ∃ v w', frame.value calls e w = .ok v w' ∧ w.store.Extends w'.store ∧
    w'.store.Founded w'.store.lists.size v

theorem Frame.values_ok (calls : Calls) (frame : Frame) {es : List Expr}
    (all : ∀ e ∈ es, frame.Makes calls e) (w : World) :
    ∃ vs w', frame.values calls es w = .ok vs w' ∧ w.store.Extends w'.store ∧
      ∀ v ∈ vs, w'.store.Founded w'.store.lists.size v := by
  induction es generalizing w with
  | nil => exact ⟨[], w, rfl, .refl _, forall_mem_nil _⟩
  | cons e es ih =>
    obtain ⟨v, w₁, first, grown₁, founded⟩ := all e mem_cons_self w
    obtain ⟨vs, w', rest, grown, others⟩ := ih (fun e he => all e (mem_cons_of_mem _ he)) w₁
    refine ⟨v :: vs, w', ?_, grown₁.trans grown, forall_mem_cons.2 ⟨?_, others⟩⟩
    · rw [Frame.values, bind_of_ok first, bind_of_ok rest]
      rfl
    · exact (founded.grow (Nat.le_refl _) grown).mono grown.listsSize

theorem Expr.Constant.makes {e : Expr} (h : e.Constant) (calls : Calls) (frame : Frame) :
    frame.Makes calls e := by
  induction h with
  | value c => exact fun w => ⟨c.toValue, w, by rw [Frame.value]; rfl, .refl _, .constant c⟩
  | @array items _ ih =>
    intro w
    obtain ⟨vs, w₁, made, grown, founded⟩ := Frame.values_ok calls frame ih w
    have whole : frame.value calls (.array items) w = ofAct (Act.newList vs) w₁ := by
      rw [Frame.value, bind_of_ok made]
    have pushed : w₁.store.Agree (fun _ => False) _ := (Store.Agree.refl w₁.store).pushList ⟨vs, 0⟩
    refine ⟨_, _, whole, grown.trans pushed, .list ?_ fun v hv => ?_⟩
    · exact Array.size_push _ ▸ Nat.lt_succ_self _
    · rw [Store.list_pushList_self] at hv
      exact (founded v hv).grow (Nat.le_refl _) pushed

section Variables

variable {scope : Scope} {s : Store} {c : Nat} {name : String} {lenient : Bool} {line : Int}

theorem Scope.getVariable_strict (h : (s.dict c).get? (.text name) = none)
    (mode : scope.mode false lenient = .strict) :
    scope.getVariable c name lenient line s =
      .error (.raised (.missingVariable name) scope.template line none) s := by
  refine bind_error.2 (.inr ⟨s.dict c, s, rfl, ?_⟩)
  rw [h, mode]
  rfl

theorem Scope.getVariable_lenient (h : (s.dict c).get? (.text name) = none)
    (mode : scope.mode false lenient = .lenient) :
    scope.getVariable c name lenient line s = .ok .null s := by
  refine bind_ok.2 ⟨s.dict c, s, rfl, ?_⟩
  rw [h, mode]
  rfl

end Variables

theorem Eval.ofAct_error {α : Type} {act : Act α} {w w' : World} {e : Fault} :
    ofAct act w = .error e w' ↔
      ∃ f s, act w.store = .error f s ∧ e = ⟨f, 0⟩ ∧ { w with store := s } = w' := by
  rw [ofAct]
  cases act w.store with
  | ok a s => simp
  | error f s =>
    constructor
    · intro h
      cases h
      exact ⟨f, s, rfl, rfl, rfl⟩
    · rintro ⟨_, _, ⟨rfl, rfl⟩, rfl, rfl⟩
      rfl

namespace Lookup

/-- How a failed search is taken under some care, when variables have to be there. -/
def modeOf : Care → Attribute.Mode
  | .strict => .strict
  | .lenient => .lenient
  | .probed => .probe

variable (strict : frame.env.options.strictVariables = true)

include strict

theorem mode_eq (care : Care) :
    frame.scope.mode (care == .probed) (care == .lenient) = modeOf care := by
  show (if care == .probed then Attribute.Mode.probe
    else if care == .lenient || !frame.env.options.strictVariables then .lenient else .strict) = _
  rw [strict]
  cases care <;> rfl

theorem value_step (calls : Calls) (item : Literal) (args : List Literal) (access : Access)
    (line : Int) (w₁ : World) :
    ∃ i vs w₂, (w₂.store.view i).endless false = false ∧ (args = [] → vs = []) ∧
      ∀ (care : Care) {object : Lookup} {w : World} {o : Value},
      frame.value calls (object.expr care.below) w = .ok o w₁ →
        frame.value calls ((step object item args access line).expr care) w =
          ofAct (Attribute.get frame.scope o i vs access (modeOf care) line) w₂ := by
  obtain ⟨i, wᵢ, hitem, -, founded⟩ := item.constant.makes calls frame w₁
  have constant : ∀ e ∈ args.map (·.expr), frame.Makes calls e :=
    forall_mem_map.2 fun a _ => a.constant.makes calls frame
  obtain ⟨vs, w₂, hargs, grown, -⟩ := Frame.values_ok calls frame constant wᵢ
  refine ⟨i, vs, w₂, ((founded.grow (Nat.le_refl _) grown).mono grown.listsSize).view_ends, ?_,
    fun care {_} {_} {_} found => ?_⟩
  · rintro rfl
    cases hargs
    rfl
  rw [expr, Frame.value, bind_of_ok found, bind_of_ok hitem, bind_of_ok hargs, ← mode_eq strict care]
  rfl

omit strict in
theorem value_step_error (care : Care) {object : Lookup} {item : Literal} {args : List Literal}
    {access : Access} {line : Int} {w w' : World} {f : Fault}
    (failed : frame.value calls (object.expr care.below) w = .error f w') :
    frame.value calls ((step object item args access line).expr care) w = .error f w' := by
  rw [expr, Frame.value]
  exact bind_error.2 (.inl failed)

section Start

variable {name : String} {line : Int} {w : World} {v : Value} {care : Care}

omit strict in
theorem value_reading (own : name ≠ "_context") (asks : care ≠ .probed) :
    frame.value calls ((start name line).expr care) w =
      ofAct (frame.scope.getVariable frame.context name (care == .lenient) line) w := by
  rw [expr, if_neg (by rw [beq_iff_eq]; exact own), if_neg (by rw [beq_iff_eq]; exact asks),
    Frame.value]

omit strict in
theorem value_of_some (own : name ≠ "_context") (asks : care ≠ .probed)
    (there : (w.store.dict frame.context).get? (.text name) = some v) :
    frame.value calls ((start name line).expr care) w = .ok v w := by
  rw [value_reading own asks]
  exact ofAct_ok.2 ⟨_, Scope.getVariable_ok _ there _ line, rfl⟩

theorem strict_of_none (calls : Calls) (line : Int) (own : name ≠ "_context")
    (missing : (w.store.dict frame.context).get? (.text name) = none) :
    ∃ f, frame.value calls ((start name line).expr .strict) w = .error f w := by
  rw [value_reading own (by decide)]
  exact ⟨_, ofAct_error.2
    ⟨_, _, Scope.getVariable_strict missing (mode_eq strict .strict), rfl, rfl⟩⟩

end Start

theorem lenient_of_ok (l : Lookup) {w w' : World} {v : Value}
    (found : frame.value calls (l.expr .strict) w = .ok v w') :
    frame.value calls (l.expr .lenient) w = .ok v w' := by
  induction l generalizing v w' with
  | start name line =>
    by_cases own : name = "_context"
    · subst own
      exact found
    · cases there : (w.store.dict frame.context).get? (.text name) with
      | none =>
        obtain ⟨f, failed⟩ := strict_of_none strict calls line own there
        cases failed.symm.trans found
      | some u =>
        cases (value_of_some own (by decide) there).symm.trans found
        exact value_of_some own (by decide) there
  | step object item args access line ih =>
    cases first : frame.value calls (object.expr .strict) w with
    | error f w₁ => cases (value_step_error .strict first).symm.trans found
    | ok o w₁ =>
      obtain ⟨i, vs, w₂, -, -, taken⟩ := value_step strict calls item args access line w₁
      rw [taken .strict first] at found
      rw [taken .lenient (ih first)]
      obtain ⟨s, got, rfl⟩ := ofAct_ok.1 found
      exact ofAct_ok.2 ⟨s, Attribute.get_lenient_of_ok got, rfl⟩

theorem lenient_of_error (l : Lookup) {w w' : World} {f : Fault}
    (failed : frame.value calls (l.expr .strict) w = .error f w')
    (kind : ¬Attribute.Breaks f.failure) :
    ∃ w'', frame.value calls (l.expr .lenient) w = .ok .null w'' := by
  induction l generalizing f w' with
  | start name line =>
    by_cases own : name = "_context"
    · subst own
      cases failed
    · cases there : (w.store.dict frame.context).get? (.text name) with
      | none =>
        rw [value_reading own (by decide)]
        exact ⟨w, ofAct_ok.2 ⟨_, Scope.getVariable_lenient there (mode_eq strict .lenient), rfl⟩⟩
      | some u => cases (value_of_some own (by decide) there).symm.trans failed
  | step object item args access line ih =>
    cases first : frame.value calls (object.expr .strict) w with
    | error f₁ w₁ =>
      cases (value_step_error .strict first).symm.trans failed
      obtain ⟨w₂, null⟩ := ih first kind
      obtain ⟨i, vs, w₃, ends, -, taken⟩ := value_step strict calls item args access line w₂
      rw [taken .lenient null]
      exact ⟨w₃, ofAct_ok.2 ⟨_, (Attribute.get_null _ _ _ _ ends).1, rfl⟩⟩
    | ok o w₁ =>
      obtain ⟨i, vs, w₂, -, -, taken⟩ := value_step strict calls item args access line w₁
      rw [taken .strict first] at failed
      rw [taken .lenient (lenient_of_ok strict object first)]
      obtain ⟨f, s, got, rfl, rfl⟩ := ofAct_error.1 failed
      exact ⟨_, ofAct_ok.2 ⟨s, Attribute.get_lenient_of_error got kind, rfl⟩⟩

theorem probed_step {object : Lookup} {item : Literal} {args : List Literal} {access : Access}
    {line : Int} {w : World}
    (before : ∀ f w', frame.value calls (object.expr .strict) w = .error f w' →
      ¬Attribute.Breaks f.failure)
    (unstuck : ∀ f w', frame.value calls ((step object item args access line).expr .strict) w =
      .error f w' → ¬Attribute.Stuck f.failure) :
    ∃ b w', frame.value calls ((step object item args access line).expr .probed) w =
        .ok (.bool b) w' ∧
      (b = true ↔
        ∃ v w', frame.value calls ((step object item args access line).expr .strict) w = .ok v w') := by
  cases first : frame.value calls (object.expr .strict) w with
  | error f w₁ =>
    obtain ⟨w₂, null⟩ := lenient_of_error strict object first (before f w₁ first)
    obtain ⟨i, vs, w₃, ends, -, taken⟩ := value_step strict calls item args access line w₂
    rw [taken .probed null, value_step_error .strict first]
    exact ⟨false, w₃, ofAct_ok.2 ⟨_, (Attribute.get_null _ _ _ _ ends).2, rfl⟩, by simp, by simp⟩
  | ok o w₁ =>
    obtain ⟨i, vs, w₂, -, -, taken⟩ := value_step strict calls item args access line w₁
    rw [taken .strict first] at unstuck ⊢
    rw [taken .probed (lenient_of_ok strict object first)]
    obtain ⟨b, s', asked, right⟩ := Attribute.get_probe fun f s' failed =>
      unstuck ⟨f, 0⟩ _ (ofAct_error.2 ⟨f, s', failed, rfl, rfl⟩)
    refine ⟨b, _, ofAct_ok.2 ⟨s', asked, rfl⟩, right.trans ⟨?_, ?_⟩⟩
    · rintro ⟨v, s, got⟩
      exact ⟨v, _, ofAct_ok.2 ⟨s, got, rfl⟩⟩
    · rintro ⟨v, w', got⟩
      obtain ⟨s, got, -⟩ := ofAct_ok.1 got
      exact ⟨v, s, got⟩

theorem probed_start {name : String} (own : name ≠ "_context") (line : Int) (w : World) :
    ∃ b w', frame.value calls ((start name line).expr .probed) w = .ok (.bool b) w' ∧
      (b = true ↔ ∃ v w', frame.value calls ((start name line).expr .strict) w = .ok v w') := by
  have known : frame.value calls ((start name line).expr .probed) w =
      .ok (.bool ((w.store.dict frame.context).get? (.text name)).isSome) w := by
    rw [expr, if_neg (by rw [beq_iff_eq]; exact own), if_pos (by decide), Frame.value]
    rfl
  refine ⟨_, w, known, ?_⟩
  cases there : (w.store.dict frame.context).get? (.text name) with
  | none =>
    obtain ⟨f, failed⟩ := strict_of_none strict calls line own there
    rw [failed]
    simp
  | some v => exact ⟨fun _ => ⟨v, w, value_of_some own (by decide) there⟩, fun _ => rfl⟩

end Lookup

namespace Lookup

theorem expr_isDefined (l : Lookup) (line : Int) :
    (partOf (l.isDefined line)).expr = some (l.expr .probed) := by
  rw [← exprWith_node]
  cases l <;> rfl

/-- No method fails before the last access of a lookup, and something comes of each. -/
def Unbroken (calls : Calls) (frame : Frame) (w : World) : Lookup → Prop
  | start _ _ => True
  | step object item args access line =>
    (∀ f w', frame.value calls (object.expr .strict) w = .error f w' →
      ¬Attribute.Breaks f.failure) ∧
    (∀ f w', frame.value calls ((step object item args access line).expr .strict) w = .error f w' →
      ¬Attribute.Stuck f.failure)

/-- **The test `defined` tells whether a lookup has a value.**  When variables have to be there, the
test of a lookup other than the bare `_context` is a truth value, and true if and only if the lookup
by itself has a value in the same world, provided that no method fails before its last access. -/
theorem isDefined_iff (strict : frame.env.options.strictVariables = true) (calls : Calls)
    (l : Lookup) (own : ∀ line, l ≠ .start "_context" line) (line : Int) :
    ∃ e d, (Program.partOf l.node).expr = some e ∧
      (Program.partOf (l.isDefined line)).expr = some d ∧
      ∀ w, l.Unbroken calls frame w → ∃ b w', frame.value calls d w = .ok (.bool b) w' ∧
        (b = true ↔ ∃ v w'', frame.value calls e w = .ok v w'') := by
  refine ⟨l.expr .strict, l.expr .probed, exprWith_node l .strict, expr_isDefined l line,
    fun w unbroken => ?_⟩
  cases l with
  | start name at_ => exact probed_start strict (fun same => own at_ (by rw [same])) at_ w
  | step object item args access at_ => exact probed_step strict unbroken.1 unbroken.2

def strictPage : Frame :=
  (Environment.ofCore { strictVariables := true } (fun _ => .ok "") ⟨#[]⟩).frame ""
    ⟨"page", "", .skip, none, 1, 1, []⟩ 0 []

def strictWorld : World :=
  { World.start with
    store := ⟨#[⟨[.dict 1], 0⟩, ⟨[], 0⟩], #[.ready [(.text "rows", .list 0), (.text "empty", .list 1)],
      .ready [(.text "size", .int 7)]], #[], 0, 0⟩ }

def text (s : String) : Literal := ⟨.ofString s 1, .constant (.text s), rfl, .value _⟩

def number (i : Int) : Literal := ⟨.ofConstant (.int i) 1, .constant (.int i), rfl, .value _⟩

/-- `rows[0].size` -/
def sizeOfFirst : Lookup :=
  .step (.step (.start "rows" 1) (number 0) [] .key 1) (text "size") [] .any 1

/-- `rows[1].size` -/
def sizeOfSecond : Lookup :=
  .step (.step (.start "rows" 1) (number 1) [] .key 1) (text "size") [] .any 1

theorem isDefined_iff_rows :
    (∃ d, (Program.partOf (sizeOfFirst.isDefined 1)).expr = some d ∧
      Gives (strictPage.value (Render.callsAt strictPage.env "" 0) d) strictWorld (.bool true)) ∧
    ∃ d, (Program.partOf (sizeOfSecond.isDefined 1)).expr = some d ∧
      Gives (strictPage.value (Render.callsAt strictPage.env "" 0) d) strictWorld (.bool false) := by
  have strict : strictPage.env.options.strictVariables = true := rfl
  constructor
  · have unbroken : sizeOfFirst.Unbroken (Render.callsAt strictPage.env "" 0) strictPage
        strictWorld := by
      constructor <;> intro f w' failed <;> cases failed
    obtain ⟨e, d, reads, asks, right⟩ := isDefined_iff strict
      (Render.callsAt strictPage.env "" 0) sizeOfFirst (fun _ => nofun) 1
    cases reads
    obtain ⟨b, w', answer, iff⟩ := right strictWorld unbroken
    obtain rfl : b = true := iff.2 ⟨_, _, rfl⟩
    exact ⟨d, asks, w', answer⟩
  · have unbroken : sizeOfSecond.Unbroken (Render.callsAt strictPage.env "" 0) strictPage
        strictWorld := by
      constructor
      · intro f w' failed
        cases failed
        exact id
      · intro f w' failed
        cases failed
        exact nofun
    obtain ⟨e, d, reads, asks, right⟩ := isDefined_iff strict
      (Render.callsAt strictPage.env "" 0) sizeOfSecond (fun _ => nofun) 1
    cases reads
    obtain ⟨b, w', answer, iff⟩ := right strictWorld unbroken
    cases b with
    | false => exact ⟨d, asks, w', answer⟩
    | true =>
      obtain ⟨v, w'', found⟩ := iff.1 rfl
      cases found

/-- `empty.pop().size` -/
def sizeOfPopped : Lookup :=
  .step (.step (.start "empty" 1) (text "pop") [] .method 1) (text "size") [] .any 1

/-- A method that fails on the way makes the question fail, too. -/
theorem isDefined_of_failed_method :
    ∃ e d, (Program.partOf sizeOfPopped.node).expr = some e ∧
      (Program.partOf (sizeOfPopped.isDefined 1)).expr = some d ∧
      (∃ f w', strictPage.value (Render.callsAt strictPage.env "" 0) e strictWorld = .error f w') ∧
      ∃ f w', strictPage.value (Render.callsAt strictPage.env "" 0) d strictWorld = .error f w' :=
  ⟨_, _, rfl, rfl, ⟨_, _, rfl⟩, ⟨_, _, rfl⟩⟩

end Lookup

end Evaluation
end Stencil
