import Stencil.Proofs.Correspondence
import Stencil.Proofs.Mirror
import Stencil.Proofs.Ranges

/-!
# Operations on two sides

Operators, ranges, and the filters, functions and tests of the language are put together from a few
kinds of steps. An `Accord` is a relation between the steps of two sides that these kinds of steps
are in and that goes through `>>=`; then all operations are in it, for values that are alike. They are
gone through once, here.

The two sides may have different scopes. One of them may be less strict than the other
(`Scope.Milder`), if the relation does not ask what becomes of a step that fails; the methods of
containers are of no concern, since no operation but access to an attribute looks at them.
-/

namespace Stencil

open List Attribute Act

/-- Options that differ from others at most in being less strict. -/
structure Options.Laxer (lax strict : Options) : Prop where
  strictVariables : lax.strictVariables = true → strict.strictVariables = true
  strictTypes : lax.strictTypes = true → strict.strictTypes = true
  debug : lax.debug = strict.debug
  templateDirs : lax.templateDirs = strict.templateDirs
  autoescape : lax.autoescape = strict.autoescape

/-- A relation between steps on two stores, for each relation between their results. -/
structure Accord (p : Pairing) where
  rel : {α : Type} → (α → α → Prop) → Act α → Act α → Prop
  pure : ∀ {α : Type} {R : α → α → Prop} {a b : α}, R a b → rel R (pure a) (pure b)
  bind : ∀ {α β : Type} {R : α → α → Prop} {S : β → β → Prop} {x y : Act α} {f g : α → Act β},
    rel R x y → (∀ a b, R a b → rel S (f a) (g b)) → rel S (x >>= f) (y >>= g)
  rethrow : ∀ {α : Type} {R : α → α → Prop} {x y : Act α} (report : Failure → Failure), rel R x y →
    rel R (tryCatch x fun f => throw (report f)) (tryCatch y fun f => throw (report f))
  look : ∀ {α : Type} {R : α → α → Prop} {f g : Store → Act α},
    (∀ s t, Store.Alike p s t → rel R (f s) (g t)) → rel R (get >>= f) (get >>= g)
  list : ∀ {vs ws : List Value}, Forall₂ (Value.Alike p) vs ws →
    rel (Value.Alike p) (newList vs) (newList ws)
  dict : ∀ {t u : Table}, Table.Alike p t u → rel (Value.Alike p) (addDict t) (addDict u)
  handle : p.objects → ∀ o : Object, rel (Value.Alike p) (handle o) (handle o)
  handleOfCopy : p.objects → ∀ o : Object,
    rel (Value.Alike p) (handleOfCopy o) (handleOfCopy o)
  /-- Whether a step that fails goes with any other step. -/
  lax : Prop
  fails : lax → ∀ {α : Type} {R : α → α → Prop} (f : Failure) (y : Act α), rel R (throw f) y
  throw : ∀ {α : Type} {R : α → α → Prop} (f : Failure), rel R (throw f) (throw f)

variable {p : Pairing}

namespace Act

/-- Two steps are in a relation, with results that are related. -/
def Accords (A : Accord p) {α : Type} (R : α → α → Prop) (x y : Act α) : Prop := A.rel R x y

namespace Accords

variable {A : Accord p} {α β : Type} {R : α → α → Prop} {S : β → β → Prop} {x y x' y' : Act α}

theorem pure {a b : α} (related : R a b) : Accords A R (Pure.pure a) (Pure.pure b) := A.pure related

theorem throw (f : Failure) : Accords A R (MonadExcept.throw f) (MonadExcept.throw f) := A.throw f

theorem bind {f g : α → Act β} (h : Accords A R x y) (hfg : ∀ a b, R a b → Accords A S (f a) (g b)) :
    Accords A S (x >>= f) (y >>= g) := A.bind h hfg

theorem bind_eq {f g : α → Act β} (h : Accords A Eq x y) (hfg : ∀ a, Accords A S (f a) (g a)) :
    Accords A S (x >>= f) (y >>= g) :=
  h.bind fun a _ same => same ▸ hfg a

theorem get_bind {f g : Store → Act α} (h : ∀ s t, Store.Alike p s t → Accords A R (f s) (g t)) :
    Accords A R (get >>= f) (get >>= g) := A.look h

theorem ite {c : Prop} [Decidable c] (h : Accords A R x y) (h' : Accords A R x' y') :
    Accords A R (if c then x else x') (if c then y else y') := by
  split
  · exact h
  · exact h'

end Accords

variable {A : Accord p} {v w x y : Value}

theorem accords_dictEntries {a b : Nat} (paired : p.dicts a b) :
    Accords A (Entries.Alike p) (dictEntries a) (dictEntries b) :=
  .get_bind fun _ _ stores => .pure (stores.dict paired)

theorem accords_print (hvw : Value.Alike p v w) : Accords A Eq (print v) (print w) := by
  refine .get_bind fun _ _ stores => ?_
  rw [stores.view hvw]
  exact .ite (.throw _) (.pure rfl)

theorem accords_toPlain (hvw : Value.Alike p v w) : Accords A Eq (toPlain v) (toPlain w) := by
  refine .get_bind fun _ _ stores => ?_
  rw [stores.view hvw]
  exact .ite (.throw _) (.pure rfl)

theorem accords_compare (r : Relation) (hvw : Value.Alike p v w) (hxy : Value.Alike p x y) :
    Accords A Eq (compare r v x) (compare r w y) := by
  refine .get_bind fun s t stores => ?_
  rw [stores.compare r hvw hxy]
  cases t.compare r w y with
  | ok b => exact .pure rfl
  | error f => exact .throw f

theorem accords_valuesOf (hvw : Value.Alike p v w) :
    Accords A (Forall₂ (Value.Alike p)) (valuesOf v) (valuesOf w) :=
  .get_bind fun _ _ stores => .pure (rel_map (fun _ _ pair => pair.2) (stores.pairs hvw))

theorem accords_newList {vs ws : List Value} (items : Forall₂ (Value.Alike p) vs ws) :
    Accords A (Value.Alike p) (newList vs) (newList ws) := A.list items

end Act

/-! ## Plain data -/

/-- Sorting by something that is the same for items that are related keeps them related. -/
theorem mergeSort_rel {α β : Type} {R : α → β → Prop} {le : α → α → Bool} {le' : β → β → Bool}
    (hle : ∀ a b c d, R a b → R c d → le a c = le' b d) {xs : List α} {ys : List β}
    (h : Forall₂ R xs ys) : Forall₂ R (xs.mergeSort le) (ys.mergeSort le') := by
  have related : ∀ e ∈ xs.zip ys, R e.1 e.2 := fun e he => forall₂_zip h he
  have left : ((xs.zip ys).mergeSort fun e f => le e.1 f.1).map Prod.fst = xs.mergeSort le := by
    rw [map_mergeSort (s := le), map_fst_zip (Nat.le_of_eq h.length_eq)]
    exact fun _ _ _ _ => rfl
  have right : ((xs.zip ys).mergeSort fun e f => le e.1 f.1).map Prod.snd = ys.mergeSort le' := by
    rw [map_mergeSort (s := le'), map_snd_zip (Nat.le_of_eq h.length_eq.symm)]
    exact fun e he f hf => hle _ _ _ _ (related e he) (related f hf)
  rw [← left, ← right, forall₂_map_left_iff, forall₂_map_right_iff, forall₂_same]
  exact fun e he => related e (mem_mergeSort.1 he)

theorem zip_rel {α β γ δ : Type} {R : α → β → Prop} {S : γ → δ → Prop} {xs : List α} {ys : List β}
    {zs : List γ} {us : List δ} (h : Forall₂ R xs ys) (h' : Forall₂ S zs us) :
    Forall₂ (fun e f => R e.1 f.1 ∧ S e.2 f.2) (xs.zip zs) (ys.zip us) := by
  induction h generalizing zs us with
  | nil => exact .nil
  | cons head tail ih =>
    cases h' with
    | nil => exact .nil
    | cons head' tail' => exact .cons ⟨head, head'⟩ (ih tail')

namespace Plain

mutual

/-- Plain data that has the same meaning in stores that are alike: it holds objects only if they may
be met, and values only if they are alike themselves. -/
def Fits (p : Pairing) : Plain → Prop
  | .list _ items => FitsAll p items
  | .map keys values => FitsAll p keys ∧ FitsAll p values
  | .object _ => p.objects
  | .record _ => p.objects
  | .value v => Value.Alike p v v
  | _ => True

/-- Several pieces of plain data that have the same meaning in stores that are alike. -/
def FitsAll (p : Pairing) : List Plain → Prop
  | [] => True
  | d :: ds => Fits p d ∧ FitsAll p ds

end

end Plain

variable {A : Accord p}

namespace Act

theorem accords_dictOfEntries {es fs : List (Value × Value)} (h : Entries.Alike p es fs) :
    Accords A (Value.Alike p) (dictOfEntries es) (dictOfEntries fs) := by
  refine .get_bind fun s t stores => A.dict (Table.ready_alike (.merge .nil ?_))
  refine rel_map (fun _ _ entry => entry.2) (rel_filter (fun a b entry => ?_)
    (mergeSort_rel (R := fun a b => a.1 = b.1 ∧ Value.PairAlike p a.2 b.2)
      (fun a b c d hab hcd => ?_) (rel_map (fun a b pair => ⟨?_, pair⟩) h)))
  · obtain ⟨shown, k, v⟩ := a
    obtain ⟨shown', k', v'⟩ := b
    exact iff_of_eq (congrArg (fun x => Option.isNone x = true) entry.2.1.unhashable?)
  · rw [hab.1, hcd.1]
  · exact congrArg Datum.print (stores.view pair.1)

end Act

namespace Plain

mutual

theorem accords_toValue {d : Plain} (h : d.Fits p) :
    Act.Accords A (Value.Alike p) d.toValue d.toValue := by
  cases d with
  | list element items => exact (accords_toValues h).bind fun _ _ items => accords_newList items
  | unset => exact accords_newList .nil
  | map keys values =>
    refine (accords_toValues h.1).bind fun ks ks' hkeys =>
      (accords_toValues h.2).bind fun vs vs' hvalues =>
        accords_dictOfEntries (zip_rel hkeys hvalues)
  | object o => exact A.handle h o
  | record o => exact A.handleOfCopy h o
  | value v => exact .pure h
  | null | nowhere => exact .pure .null
  | bool b => exact .pure (.bool b)
  | int i => exact .pure (.int i)
  | float f => exact .pure (.float f)
  | text s => exact .pure (.text s)

theorem accords_toValues {ds : List Plain} (h : FitsAll p ds) :
    Act.Accords A (Forall₂ (Value.Alike p)) (toValues ds) (toValues ds) := by
  cases ds with
  | nil => exact .pure .nil
  | cons d ds =>
    exact (accords_toValue h.1).bind fun _ _ head =>
      (accords_toValues h.2).bind fun _ _ tail => .pure (.cons head tail)

end

end Plain

theorem Act.accords_ofResults {ds : List Plain} (h : Plain.FitsAll p ds) :
    Act.Accords A (Value.Alike p) (ofResults ds) (ofResults ds) := by
  cases ds with
  | nil => exact .pure .null
  | cons d ds =>
    cases ds with
    | nil => exact Plain.accords_toValue h.1
    | cons d' ds =>
      exact (Plain.accords_toValues h).bind fun _ _ items => .pure (.tuple items)

/-- A scope that differs from another at most in being less strict, where that is allowed, and in the
methods of containers. -/
structure Scope.Milder (A : Accord p) (mild strict : Scope) : Prop where
  template : mild.template = strict.template
  options : mild.options = strict.options ∨ A.lax ∧ mild.options.Laxer strict.options
  host : mild.host = strict.host

namespace Scope

open Act (Accords)

variable {mild strict : Scope} {v w x y : Value}

theorem isOrdered_alike (hvw : Value.Alike p v w) : isOrdered v = isOrdered w := by
  cases hvw <;> rfl

theorem accords_common (hvw : Value.Alike p v w) (hxy : Value.Alike p x y) :
    Accords A (Value.PairAlike p) (common v x) (common w y) := by
  unfold common
  rw [hvw.toNumber?, hxy.toNumber?]
  have texts : Accords A (Value.PairAlike p)
      (do return (.text (← print v), .text (← print x)))
      (do return (.text (← print w), .text (← print y))) :=
    (accords_print hvw).bind_eq fun _ => (accords_print hxy).bind_eq fun _ =>
      .pure ⟨.text _, .text _⟩
  cases w.toNumber? with
  | none => exact texts
  | some m =>
    cases y.toNumber? with
    | none => exact texts
    | some n => exact .pure ⟨.ofNumber m, .ofNumber n⟩

theorem ints_alike (is : List Int) :
    Forall₂ (Value.Alike p) (is.map Value.int) (is.map Value.int) := by
  refine forall₂_same.2 fun v member => ?_
  obtain ⟨i, -, rfl⟩ := mem_map.1 member
  exact .int i

theorem floats_alike (high step : Float) (fuel : Nat) (x : Float) :
    Forall₂ (Value.Alike p) (Range.floats high step fuel x) (Range.floats high step fuel x) := by
  induction fuel generalizing x with
  | zero => exact .nil
  | succ fuel ih =>
    unfold Range.floats
    split
    · exact .cons (.float x) (ih _)
    · exact .nil

namespace Milder

theorem refl (scope : Scope) : scope.Milder A scope := ⟨rfl, .inl rfl, rfl⟩

variable (h : mild.Milder A strict)

include h

theorem mode (defined lenient : Bool) :
    mild.mode defined lenient = strict.mode defined lenient ∨
      A.lax ∧ strict.mode defined lenient = .strict ∧ mild.mode defined lenient = .lenient := by
  unfold Scope.mode
  rcases h.options with same | ⟨lax, laxer⟩
  · exact .inl (by rw [same])
  · have flag := laxer.strictVariables
    cases defined <;> cases lenient <;> cases hs : strict.options.strictVariables <;>
      cases hl : mild.options.strictVariables <;> simp_all

theorem debug : mild.options.debug = strict.options.debug :=
  h.options.elim (congrArg Options.debug) fun laxer => laxer.2.debug

theorem raise {α : Type} {R : α → α → Prop} (line : Int) (reason : Raised) (cause : Option Failure) :
    Accords A R (strict.raise line reason cause) (mild.raise line reason cause) := by
  unfold Scope.raise
  rw [h.template]
  exact .throw _

/-- A check of types goes with the same check, or with none where steps may fail. -/
theorem checked {α : Type} {R : α → α → Prop} (reason : Raised) {x y : Act α} (hxy : Accords A R x y) :
    Accords A R (if strict.options.strictTypes then strict.raise 0 reason none else x)
      (if mild.options.strictTypes then mild.raise 0 reason none else y) := by
  rcases h.options with same | ⟨lax, laxer⟩
  · rw [same]
    exact .ite (h.raise 0 reason none) hxy
  · have flag := laxer.strictTypes
    cases hs : strict.options.strictTypes with
    | true => exact A.fails lax _ _
    | false =>
      have hl : mild.options.strictTypes = false := by simpa [hs] using flag
      rw [hl]
      exact hxy

/-! ## Operators -/

theorem getVariable {a b : Nat} (paired : p.dicts a b) (name : String) (lenient : Bool) (line : Int) :
    Accords A (Value.Alike p) (strict.getVariable a name lenient line)
      (mild.getVariable b name lenient line) := by
  refine (accords_dictEntries paired).bind fun es fs entries => ?_
  have found := entries.get? (.text name)
  generalize es.get? (.text name) = here at found ⊢
  generalize fs.get? (.text name) = there at found ⊢
  cases found with
  | some related => exact .pure related
  | none =>
    rcases h.mode false lenient with same | ⟨lax, hs, -⟩
    · rw [same]
      cases strict.mode false lenient with
      | strict => exact h.raise _ _ _
      | _ => exact .pure .null
    · rw [hs]
      exact A.fails lax _ _

theorem number (hvw : Value.Alike p v w) (hxy : Value.Alike p x y) (symbol : String) :
    Accords A Eq (strict.number v x symbol) (mild.number w y symbol) := by
  unfold Scope.number
  rw [hvw.toNumber?, hvw.typeName, hxy.typeName]
  cases w.toNumber? with
  | some n => exact .pure rfl
  | none => exact h.checked _ (.pure rfl)

theorem calculate (op : Arithmetic) (hvw : Value.Alike p v w) (hxy : Value.Alike p x y) :
    Accords A (Value.Alike p) (strict.calculate op v x) (mild.calculate op w y) := by
  refine (h.number hvw hxy _).bind_eq fun m => (h.number hxy hvw _).bind_eq fun n =>
    .ite (h.raise _ _ _) ?_
  cases op.apply m n with
  | ok k => exact .pure (.ofNumber k)
  | error f => exact .throw f

theorem negate (hvw : Value.Alike p v w) :
    Accords A (Value.Alike p) (strict.negate v) (mild.negate w) :=
  (h.number hvw (.int 0) _).bind_eq fun _ => .pure (.ofNumber _)

theorem positive (hvw : Value.Alike p v w) :
    Accords A (Value.Alike p) (strict.positive v) (mild.positive w) :=
  (h.number hvw (.int 0) _).bind_eq fun n => .pure (.ofNumber n)

theorem equal (hvw : Value.Alike p v w) (hxy : Value.Alike p x y) :
    Accords A Eq (strict.equal v x) (mild.equal w y) := by
  unfold Scope.equal
  rw [hvw.isNull, hxy.isNull, hvw.sort, hxy.sort, hvw.typeName, hxy.typeName]
  refine .ite (.pure rfl) (.ite (h.checked _ (.pure rfl)) ?_)
  have compared := fun s t (stores : Store.Alike p s t) => stores.compare .eq hvw hxy
  cases hvw <;> cases hxy
  case object.object => exact .pure rfl
  -- All other pairs of values are compared.
  all_goals
    refine .get_bind fun s t stores => ?_
    rw [compared s t stores]
    generalize t.compare .eq _ _ = answer
    cases answer with
    | ok r => exact .pure rfl
    | error f => exact h.raise _ _ _

theorem orderSame (r : Relation) (hvw : Value.Alike p v w) (hxy : Value.Alike p x y) :
    Accords A Eq (strict.orderSame r v x) (mild.orderSame r w y) := by
  unfold Scope.orderSame
  rw [isOrdered_alike hvw, hvw.typeName]
  refine .ite (h.raise _ _ _) (.get_bind fun s t stores => ?_)
  rw [stores.compare r hvw hxy]
  cases t.compare r w y with
  | ok answer => exact .pure rfl
  | error f => exact h.raise _ _ _

theorem order (r : Relation) (hvw : Value.Alike p v w) (hxy : Value.Alike p x y) :
    Accords A Eq (strict.order r v x) (mild.order r w y) := by
  unfold Scope.order
  rw [hvw.sort, hxy.sort, hvw.typeName, hxy.typeName]
  exact .ite (h.orderSame r hvw hxy) (h.checked _
    ((accords_common hvw hxy).bind fun _ _ pair => h.orderSame r pair.1 pair.2))

theorem relate (r : Relation) (hvw : Value.Alike p v w) (hxy : Value.Alike p x y) :
    Accords A Eq (strict.relate r v x) (mild.relate r w y) := by
  cases r with
  | eq => exact h.equal hvw hxy
  | ne => exact (h.equal hvw hxy).bind_eq fun _ => .pure rfl
  | _ => exact h.order _ hvw hxy

/-! ## Ranges -/

theorem charRange (low high : Char) (hvw : Value.Alike p v w) :
    Accords A (Forall₂ (Value.Alike p)) (strict.charRange low high v) (mild.charRange low high w) := by
  unfold Scope.charRange
  dsimp only
  rw [hvw.toNumber?]
  refine .ite (h.raise _ _ _) (.pure (forall₂_same.2 fun item member => ?_))
  obtain ⟨u, among, rfl⟩ := mem_map.1 member
  obtain ⟨k, -, rfl⟩ := Range.mem_ints among
  exact .text _

theorem numberRange (low high step : Number) :
    Accords A (Forall₂ (Value.Alike p)) (strict.numberRange low high step)
      (mild.numberRange low high step) := by
  unfold Scope.numberRange
  split
  · refine .ite (h.raise _ _ _) ?_
    split
    · exact .pure (ints_alike _)
    · exact .throw _
  · exact .ite (h.raise _ _ _) (.pure (floats_alike _ _ _ _))

theorem range {low low' high high' step step' : Value} (hlow : Value.Alike p low low')
    (hhigh : Value.Alike p high high') (hstep : Value.Alike p step step') :
    Accords A (Value.Alike p) (strict.range low high step) (mild.range low' high' step') := by
  have numbers : Accords A (Value.Alike p)
      (do
        let a ← strict.number low high ".."
        let z ← strict.number high low ".."
        let s ← strict.number step low ".."
        newList (← strict.numberRange a z s))
      (do
        let a ← mild.number low' high' ".."
        let z ← mild.number high' low' ".."
        let s ← mild.number step' low' ".."
        newList (← mild.numberRange a z s)) :=
    (h.number hlow hhigh _).bind_eq fun _ => (h.number hhigh hlow _).bind_eq fun _ =>
      (h.number hstep hlow _).bind_eq fun _ =>
        (h.numberRange _ _ _).bind fun _ _ items => accords_newList items
  cases hlow with
  | text a =>
    cases hhigh with
    | text z =>
      unfold Scope.range
      dsimp only
      cases singleChar? a with
      | none => exact numbers
      | some c =>
        cases singleChar? z with
        | none => exact numbers
        | some d => exact (h.charRange c d hstep).bind fun _ _ items => accords_newList items
    | _ => exact numbers
  | _ => exact numbers

end Milder
end Scope

/-! ## Attributes -/

theorem otherKey?_alike {v w : Value} (h : Value.Alike p v w) :
    Option.Rel (Value.Alike p) v.otherKey? w.otherKey? := by
  have mapped : ∀ (o : Option Int) (f : Int → Value), (∀ i, Value.Alike p (f i) (f i)) →
      Option.Rel (Value.Alike p) (o.map f) (o.map f) := by
    intro o f hf
    cases o with
    | none => exact .none
    | some i => exact .some (hf i)
  cases h with
  | text s => exact mapped (Decimal.int64? s) .int .int
  | bool | float => exact .some (.text _)
  | int i => exact mapped (Value.index? (.int i)) _ fun i => .text (toString i)
  | _ => exact .none

/-- What the objects of an embedding program give to templates fits, if any are met. -/
structure Host.Fits (p : Pairing) (h : Host) : Prop where
  field : p.objects → ∀ {o : Object} {name : String} {d : Plain}, h.field? o name = some d → d.Fits p
  call : p.objects → ∀ {o receiver : Object} {name : String} {m : Host.Method} {args results : List Plain},
    h.method? o name = some (receiver, m) → h.call receiver m args = .ok results →
      Plain.FitsAll p results

theorem Host.field?_of_member {h : Host} {o : Object} {name : String} {d : Plain}
    (there : h.member? o name = some (d, true)) : h.field? o name = some d := by
  rw [field?, there]
  rfl

namespace Attribute

open Act (Accords)

variable {v w x y : Value} {vs ws : List Value} {es fs : Entries} {s t : Store}

theorem under?_alike (entries : Entries.Alike p es fs) (key : Value.Alike p v w) :
    Option.Rel (Value.Alike p) (under? es v) (under? fs w) := by
  unfold under?
  rw [key.unhashable?]
  cases w.unhashable? with
  | some type => exact .none
  | none => exact entries.get? key

theorem at?_alike (items : Forall₂ (Value.Alike p) vs ws) (key : Value.Alike p v w) :
    Option.Rel (Value.Alike p) (at? vs v) (at? ws w) := by
  unfold at?
  rw [key.index?]
  cases w.index? with
  | none => exact .none
  | some i =>
    change Option.Rel _ (if i < 0 then none else vs[i.toNat]?) (if i < 0 then none else ws[i.toNat]?)
    split
    · exact .none
    · exact rel_getElem? items _

theorem item?_alike (stores : Store.Alike p s t) (object : Value.Alike p v w)
    (key : Value.Alike p x y) : Option.Rel (Value.Alike p) (item? s v x) (item? t w y) := by
  cases object with
  | dict paired =>
    have entries := stores.dict paired
    unfold item?
    dsimp only
    have found := under?_alike entries key
    have other := otherKey?_alike key
    generalize under? (s.dict _) x = here at found ⊢
    generalize under? (t.dict _) y = there at found ⊢
    generalize x.otherKey? = k at other ⊢
    generalize y.otherKey? = l at other ⊢
    cases found with
    | some related => exact .some related
    | none =>
      cases other with
      | some related => exact under?_alike entries related
      | none => exact .none
  | list paired => exact at?_alike (stores.list paired) key
  | tuple items => exact at?_alike items key
  | _ => exact .none

inductive FoundAlike (p : Pairing) : Found → Found → Prop
  | value {v w : Value} (related : Value.Alike p v w) : FoundAlike p (.value v) (.value w)
  | failed (cause : Failure) (member : String) :
    FoundAlike p (.failed cause member) (.failed cause member)
  | missing (reason : Raised) : FoundAlike p (.missing reason) (.missing reason)

theorem accords_ofMethod {h : Host} (fits : h.Fits p) (met : p.objects) (o : Object) (key : String)
    (args : List Datum) (otherwise : Raised) :
    Accords A (FoundAlike p) (ofMethod h o key args otherwise) (ofMethod h o key args otherwise) := by
  unfold ofMethod
  refine .ite (.throw _) ?_
  cases found : method? h o key (args.map Datum.toPlain) with
  | none => exact .pure (.missing _)
  | some bound =>
    obtain ⟨receiver, m⟩ := bound
    dsimp only
    cases answered : h.call receiver m (args.map Datum.toPlain) with
    | error e => exact .pure (.failed _ _)
    | ok results =>
      obtain ⟨name, -, bound⟩ := exists_of_findSome?_eq_some found
      obtain ⟨pair, there, accepted⟩ := Option.bind_eq_some_iff.1 bound
      have same : pair = (receiver, m) := by
        obtain ⟨receiver', m'⟩ := pair
        dsimp only at accepted
        split at accepted
        · exact Option.some.inj accepted
        · cases accepted
      rw [same] at there
      exact (accords_ofResults (fits.call met there answered)).bind fun _ _ value =>
        .pure (.value value)

theorem accords_ofObject {h : Host} (fits : h.Fits p) (met : p.objects) (o : Object) (key : String)
    (args : List Datum) (access : Node.Access) (otherwise : Raised) :
    Accords A (FoundAlike p) (ofObject h o key args access otherwise)
      (ofObject h o key args access otherwise) := by
  have method := @accords_ofMethod p A h fits met o key args otherwise
  unfold ofObject
  cases found : field? h o key with
  | none => cases access <;> exact method
  | some member =>
    obtain ⟨d, there⟩ := member
    cases there with
    | false =>
      cases access with
      | method => exact method
      | _ => exact .throw _
    | true =>
      obtain ⟨name, -, there⟩ := exists_of_findSome?_eq_some found
      have value := @Plain.accords_toValue p A _ (fits.field met (Host.field?_of_member there))
      cases access with
      | method => exact method
      | _ => exact value.bind fun _ _ value => .pure (.value value)

theorem missingKey_alike (stores : Store.Alike p s t) (object : Value.Alike p v w) (key : String) :
    missingKey s v key = missingKey t w key := by
  cases object with
  | dict paired =>
    unfold missingKey
    dsimp only
    rw [map_eq_of_rel (stores.dict paired).keys fun _ _ k => by rw [stores.view k]]
  | list paired =>
    unfold missingKey
    dsimp only
    rw [(stores.list paired).length_eq]
  | tuple items =>
    unfold missingKey
    dsimp only
    rw [items.length_eq]
  | _ => rfl

end Attribute

/-- Methods of containers, on the two sides, are in a relation. -/
def Container.Methods.Accord (A : Stencil.Accord p) (methods methods' : Container.Methods) : Prop :=
  ∀ {v w : Value}, Value.Alike p v w → ∀ (key : String) {vs ws : List Value},
    Forall₂ (Value.Alike p) vs ws → ∀ (access : Node.Access) (otherwise : Raised),
    Act.Accords A (Attribute.FoundAlike p) (ofContainer methods v key vs access otherwise)
      (ofContainer methods' w key ws access otherwise)

namespace Scope.Milder

open Act (Accords)
open Attribute (FoundAlike)

variable {mild strict : Scope} (h : mild.Milder A strict) (host : strict.host.Fits p)
  (methods : strict.methods.Accord A mild.methods) {v w x y : Value} {vs ws : List Value}

include h host methods

theorem searchMember (object : Value.Alike p v w) (key : String)
    (args : Forall₂ (Value.Alike p) vs ws) (access : Node.Access) :
    Accords A (FoundAlike p) (searchMember strict v key vs access)
      (Attribute.searchMember mild w key ws access) := by
  have container := methods object key args access (.missingMember key w.typeName)
  unfold Attribute.searchMember
  dsimp only
  rw [object.isNull, object.isScalar, object.typeName, h.host]
  refine .ite (.pure (.missing _)) ?_
  cases object with
  | object o met paired =>
    refine .get_bind fun s t stores => ?_
    rw [map_eq_of_rel args fun _ _ arg => by rw [stores.view arg]]
    exact accords_ofObject host met o key _ access _
  | template name met => exact .pure (.missing _)
  | _ => exact container

theorem search (object : Value.Alike p v w) (item : Value.Alike p x y)
    (args : Forall₂ (Value.Alike p) vs ws) (access : Node.Access) :
    Accords A (FoundAlike p) (search strict v x vs access)
      (search mild w y ws access) := by
  refine (Act.accords_print item).bind_eq fun key => .get_bind fun s t stores => ?_
  have member := h.searchMember host methods object key args access
  have found := item?_alike stores object item
  generalize item? s v x = here at found ⊢
  generalize item? t w y = there at found ⊢
  refine .ite member ?_
  cases found with
  | some related => exact .pure (.value related)
  | none =>
    rw [missingKey_alike stores object]
    exact .ite (.pure (.missing _)) member

theorem getAttribute (object : Value.Alike p v w) (item : Value.Alike p x y)
    (args : Forall₂ (Value.Alike p) vs ws) (access : Node.Access) (defined lenient : Bool)
    (line : Int) :
    Accords A (Value.Alike p) (strict.getAttribute v x vs access defined lenient line)
      (mild.getAttribute w y ws access defined lenient line) := by
  unfold Scope.getAttribute
  refine (h.search host methods object item args access).bind fun _ _ found => ?_
  rw [object.typeName]
  rcases h.mode defined lenient with same | ⟨lax, hs, hl⟩
  · rw [same]
    generalize strict.mode defined lenient = mode
    cases found with
    | value related =>
      cases mode with
      | probe => exact .pure (.bool true)
      | _ => exact .pure related
    | failed cause member =>
      cases mode with
      | probe => exact .pure (.bool false)
      | _ => exact h.raise _ _ _
    | missing reason =>
      cases mode with
      | probe => exact .pure (.bool false)
      | lenient => exact .pure .null
      | strict => exact h.raise _ _ _
  · rw [hs, hl]
    cases found with
    | value related => exact .pure related
    | _ => exact A.fails lax _ _

end Scope.Milder

/-! ## All steps that expressions take -/

namespace Frame

theorem pairsOf_alike : ∀ {vs ws : List Value}, Forall₂ (Value.Alike p) vs ws →
    Entries.Alike p (pairsOf vs) (pairsOf ws)
  | _, _, .nil => .nil
  | _, _, .cons _ .nil => .nil
  | _, _, .cons key (.cons value rest) => .cons ⟨key, value⟩ (pairsOf_alike rest)

theorem accords_hash {vs ws : List Value} (parts : Forall₂ (Value.Alike p) vs ws) :
    Act.Accords A (Value.Alike p) (hash vs) (hash ws) := by
  obtain ⟨t, u, failure, here, there, alike⟩ :=
    ((Table.filled_alike .nil).putAll (pairsOf_alike parts)).cases
  unfold hash
  rw [here, there]
  cases failure with
  | none => exact A.dict alike
  | some f => exact .throw _

end Frame

/-- **Operations are in accord with those of a milder environment**, if methods of containers are. -/
theorem Operation.accords {env env' : Environment}
    (milder : ∀ template, (env'.scope template).Milder A (env.scope template))
    (host : env.host.Fits p) (methods : env.methods.Accord A env'.methods) {α : Type}
    {R : α → α → Prop} {x y : Act α} (h : Operation p env env' R x y) : Act.Accords A R x y := by
  cases h with
  | entries paired => exact accords_dictEntries paired
  | print value => exact accords_print value
  | list items => exact accords_newList items
  | hash parts => exact Frame.accords_hash parts
  | getVariable paired template name lenient line =>
    exact (milder template).getVariable paired name lenient line
  | getAttribute object item args template access defined lenient line =>
    exact (milder template).getAttribute host methods object item args access defined lenient line
  | calculate left right template op => exact (milder template).calculate op left right
  | relate left right template r => exact (milder template).relate r left right
  | negate value template => exact (milder template).negate value
  | positive value template => exact (milder template).positive value
  | range low high template => exact (milder template).range low high (.int 1)

end Stencil
