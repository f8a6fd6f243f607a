import Mathlib.Data.List.Perm.Subperm
import Stencil.Render

/-!
# Values that are alike

Where in a store a container stands makes no difference to a template. To say so, two stores are
compared by a `Pairing`, which tells which container of the one stands for which container of the
other. Values are alike if they are equal up to the pairing, and stores are alike if containers that
are paired hold values that are alike.

What is here:

* `Pairing` and `Value.Alike`, with what values that are alike have in common: their types, and
  whether they are the same as keys;
* entries and tables that are alike, and that the operations on them keep them so;
* `Store.Alike`, and that values that are alike look the same (`Store.Alike.view`) and compare in the
  same way (`Store.Alike.compare`).

A pairing also tells in advance how the containers to come are paired: in the order in which they are
made. So it never changes while two renderings are compared.
-/

namespace Stencil

open List Table
open Relator (BiUnique)

/-- Which references of a store stand for which of another. -/
structure Pairing where
  lists : Nat → Nat → Prop
  dicts : Nat → Nat → Prop
  sets : Nat → Nat → Prop
  handles : Nat → Nat → Prop
  objects : Prop
  /-- The programs of the templates that may be met as values. -/
  templates : String → Prop
  lists_unique : BiUnique lists
  dicts_unique : BiUnique dicts
  sets_unique : BiUnique sets
  handles_unique : BiUnique handles

variable {p : Pairing}

theorem beq_of_paired {r : Nat → Nat → Prop} (unique : BiUnique r) {a b c d : Nat} (hab : r a b)
    (hcd : r c d) : (a == c) = (b == d) := by
  have same : a = c ↔ b = d := Relator.rel_eq unique hab hcd
  by_cases h : a = c
  · rw [beq_iff_eq.2 h, beq_iff_eq.2 (same.1 h)]
  · rw [beq_eq_false_iff_ne.2 h, beq_eq_false_iff_ne.2 fun h' => h (same.2 h')]

/-! ## Values -/

/-- Two values are equal up to a pairing. -/
inductive Value.Alike (p : Pairing) : Value → Value → Prop
  | null : Alike p .null .null
  | bool (b : Bool) : Alike p (.bool b) (.bool b)
  | int (i : Int) : Alike p (.int i) (.int i)
  | float (f : Float) : Alike p (.float f) (.float f)
  | text (s : String) : Alike p (.text s) (.text s)
  | tuple {xs ys} (items : Forall₂ (Alike p) xs ys) : Alike p (.tuple xs) (.tuple ys)
  | list {a b} (paired : p.lists a b) : Alike p (.list a) (.list b)
  | dict {a b} (paired : p.dicts a b) : Alike p (.dict a) (.dict b)
  | set {a b} (paired : p.sets a b) : Alike p (.set a) (.set b)
  | object {a b} (o : Object) (met : p.objects) (paired : p.handles a b) :
    Alike p (.object a o) (.object b o)
  | template (name : String) {unit : String} (met : p.templates unit) :
    Alike p (.template name unit) (.template name unit)
  | method {a b c d} (name : String) (paired : p.handles a b) (owners : p.sets c d) :
    Alike p (.method a name c) (.method b name d)

namespace Value.Alike

variable {v w x y : Value}

theorem type (h : Alike p v w) : v.type = w.type := by cases h <;> rfl

theorem typeName (h : Alike p v w) : v.typeName = w.typeName := by cases h <;> rfl

theorem sort (h : Alike p v w) : v.sort = w.sort := by cases h <;> rfl

theorem isNull (h : Alike p v w) : v.isNull = w.isNull := by cases h <;> rfl

theorem isContainer (h : Alike p v w) : v.isContainer = w.isContainer := by cases h <;> rfl

theorem isScalar (h : Alike p v w) : v.isScalar = w.isScalar := by cases h <;> rfl

theorem toNumber? (h : Alike p v w) : v.toNumber? = w.toNumber? := by cases h <;> rfl

theorem index? (h : Alike p v w) : v.index? = w.index? := by cases h <;> rfl

theorem ofNumber (n : Number) : Alike p (.ofNumber n) (.ofNumber n) := by
  cases n with
  | int i => exact .int i
  | float f => exact .float f

theorem sameScalar (hvw : Alike p v w) (hxy : Alike p x y) : v.sameScalar x = w.sameScalar y := by
  cases hvw with
  | method name paired owners =>
    cases hxy with
    | method name' paired' owners' => exact beq_of_paired p.handles_unique paired paired'
    | _ => rfl
  | _ => cases hxy <;> rfl

end Value.Alike

namespace Value

/-! The functions that look into tuples are mutually recursive, and so are the proofs. -/

mutual

theorem Alike.unhashable? {v w : Value} (h : Alike p v w) : v.unhashable? = w.unhashable? := by
  cases h with
  | tuple items => exact firstUnhashable?_alike items
  | _ => rfl

theorem firstUnhashable?_alike {vs ws : List Value} (h : Forall₂ (Alike p) vs ws) :
    firstUnhashable? vs = firstUnhashable? ws := by
  cases h with
  | nil => rfl
  | cons head tail =>
    rw [firstUnhashable?, firstUnhashable?, head.unhashable?, firstUnhashable?_alike tail]

end

mutual

theorem Alike.digest {v w : Value} (h : Alike p v w) : v.digest = w.digest := by
  cases h with
  | tuple items =>
    rw [Value.digest, Value.digest, items.length_eq, digestOfItems_alike items]
  | _ => rfl

theorem digestOfItems_alike {vs ws : List Value} (h : Forall₂ (Alike p) vs ws)
    (step start weight : UInt32) :
    digestOfItems step start weight vs = digestOfItems step start weight ws := by
  cases h with
  | nil => rfl
  | cons head tail =>
    rw [digestOfItems, digestOfItems, head.digest, digestOfItems_alike tail]

end

theorem allSame_alike {same : Value → Value → Except Failure Bool}
    (hsame : ∀ v w x y, Alike p v w → Alike p x y → same v x = same w y) {vs ws xs ys : List Value}
    (hvw : Forall₂ (Alike p) vs ws) (hxy : Forall₂ (Alike p) xs ys) :
    allSame same vs xs = allSame same ws ys := by
  induction hvw generalizing xs ys with
  | nil => rfl
  | cons head tail ih =>
    cases hxy with
    | nil => rfl
    | cons head' tail' => rw [allSame, allSame, hsame _ _ _ _ head head', ih tail']

theorem sameWithin_alike (depth : Nat) {v w x y : Value} (hvw : Alike p v w) (hxy : Alike p x y) :
    sameWithin depth v x = sameWithin depth w y := by
  induction depth generalizing v w x y with
  | zero => rfl
  | succ depth ih =>
    have scalar := congrArg (Except.ok (ε := Failure)) (hvw.sameScalar hxy)
    cases hvw with
    | tuple items =>
      cases hxy with
      | tuple items' =>
        rw [sameWithin, sameWithin, items.length_eq, items'.length_eq,
          allSame_alike (fun _ _ _ _ => ih) items items']
      | _ => exact scalar
    | _ => exact scalar

theorem Alike.sameKey {v w x y : Value} (hvw : Alike p v w) (hxy : Alike p x y) :
    v.sameKey x = w.sameKey y := by
  have scalar := congrArg (Except.ok (ε := Failure)) (hvw.sameScalar hxy)
  have deep := sameWithin_alike comparisonDepth hvw hxy
  have left := hvw.digest
  have right := hxy.digest
  cases hvw with
  | tuple items =>
    cases hxy with
    | tuple items' => rw [Value.sameKey, Value.sameKey, left, right, deep]
    | _ => exact scalar
  | _ => exact scalar

end Value

/-! ## Results that may be failures -/

inductive Both {ε α β : Type} (R : α → β → Prop) : Except ε α → Except ε β → Prop
  | ok {a b} (related : R a b) : Both R (.ok a) (.ok b)
  | error (e : ε) : Both R (.error e) (.error e)

namespace Both

variable {ε α β γ δ : Type} {R : α → β → Prop} {S : γ → δ → Prop}

theorem bind {x : Except ε α} {y : Except ε β} {f : α → Except ε γ} {g : β → Except ε δ}
    (hxy : Both R x y) (hfg : ∀ a b, R a b → Both S (f a) (g b)) : Both S (x >>= f) (y >>= g) := by
  cases hxy with
  | ok related => exact hfg _ _ related
  | error e => exact .error e

theorem cases {x : Except ε α} {y : Except ε β} (h : Both R x y) :
    (∃ a b, x = .ok a ∧ y = .ok b ∧ R a b) ∨ ∃ e, x = .error e ∧ y = .error e := by
  cases h with
  | ok related => exact Or.inl ⟨_, _, rfl, rfl, related⟩
  | error e => exact Or.inr ⟨e, rfl, rfl⟩

theorem same_bind (x : Except ε α) {f : α → Except ε γ} {g : α → Except ε δ}
    (hfg : ∀ a, Both S (f a) (g a)) : Both S (x >>= f) (x >>= g) := by
  cases x with
  | ok a => exact hfg a
  | error e => exact .error e

end Both

section Relations

variable {α β : Type} {R : α → β → Prop} {a : Option α} {b : Option β} {xs : List α} {ys : List β}

theorem getD_of_rel (h : Option.Rel R a b) {x : α} {y : β} (hxy : R x y) : R (a.getD x) (b.getD y) := by
  cases h with
  | some related => exact related
  | none => exact hxy

theorem isSome_of_rel (h : Option.Rel R a b) : a.isSome = b.isSome := by cases h <;> rfl

theorem isEmpty_of_rel (h : Forall₂ R xs ys) : xs.isEmpty = ys.isEmpty := by cases h <;> rfl

theorem any_of_rel (h : Forall₂ R xs ys) {f : α → Bool} {g : β → Bool}
    (hfg : ∀ x y, R x y → f x = g y) : xs.any f = ys.any g := by
  induction h with
  | nil => rfl
  | cons head tail ih => rw [any_cons, any_cons, hfg _ _ head, ih]

theorem rel_getElem? (h : Forall₂ R xs ys) (i : Nat) : Option.Rel R (xs[i]?) (ys[i]?) := by
  induction h generalizing i with
  | nil => exact .none
  | cons head tail ih =>
    cases i with
    | zero => exact .some head
    | succ i => exact ih i

theorem map_eq_of_rel {γ : Type} (h : Forall₂ R xs ys) {f : α → γ} {g : β → γ}
    (hfg : ∀ x y, R x y → f x = g y) : xs.map f = ys.map g := by
  induction h with
  | nil => rfl
  | cons head tail ih => rw [map_cons, map_cons, hfg _ _ head, ih]

theorem lookup_rel {xs : List (String × α)} {ys : List (String × β)}
    (h : Forall₂ (fun x y => x.1 = y.1 ∧ R x.2 y.2) xs ys) (name : String) :
    Option.Rel R (xs.lookup name) (ys.lookup name) := by
  induction h with
  | nil => exact .none
  | @cons x y _ _ head tail ih =>
    obtain ⟨key, a⟩ := x
    obtain ⟨key', b⟩ := y
    obtain ⟨rfl, related⟩ := head
    rw [lookup_cons, lookup_cons]
    cases name == key with
    | true => exact .some related
    | false => exact ih

end Relations

/-! ## Entries -/

def Value.PairAlike (p : Pairing) (e f : Value × Value) : Prop :=
  Value.Alike p e.1 f.1 ∧ Value.Alike p e.2 f.2

def Value.NamedAlike (p : Pairing) (a b : String × Value) : Prop :=
  a.1 = b.1 ∧ Value.Alike p a.2 b.2

/-- Two dicts have entries that are alike, in the same order. -/
abbrev Entries.Alike (p : Pairing) (es fs : Entries) : Prop := Forall₂ (Value.PairAlike p) es fs

namespace Entries

variable {es fs gs hs : Entries} {k l v w : Value}

theorem Alike.keys (h : Alike p es fs) : Forall₂ (Value.Alike p) es.keys fs.keys :=
  rel_map (fun _ _ pair => pair.1) h

theorem Alike.values (h : Alike p es fs) : Forall₂ (Value.Alike p) es.values fs.values :=
  rel_map (fun _ _ pair => pair.2) h

theorem Alike.isEmpty (h : Alike p es fs) : es.isEmpty = fs.isEmpty := by cases h <;> rfl

theorem Alike.find (h : Alike p es fs) (key : Value.Alike p k l) :
    Both (Option.Rel (Value.Alike p)) (es.find k) (fs.find l) := by
  induction h with
  | nil => exact .ok .none
  | cons head tail ih =>
    rw [Entries.find, Entries.find, key.sameKey head.1]
    refine .same_bind _ fun same => ?_
    cases same with
    | true => exact .ok (.some head.2)
    | false => exact ih

theorem Alike.get? (h : Alike p es fs) (key : Value.Alike p k l) :
    Option.Rel (Value.Alike p) (es.get? k) (fs.get? l) := by
  unfold Entries.get?
  rcases (h.find key).cases with ⟨a, b, here, there, found⟩ | ⟨e, here, there⟩
  · rw [here, there]
    exact found
  · rw [here, there]
    exact .none

theorem Alike.put (h : Alike p es fs) (key : Value.Alike p k l) (value : Value.Alike p v w) :
    Both (Alike p) (es.put k v) (fs.put l w) := by
  induction h with
  | nil => exact .ok (.cons ⟨key, value⟩ .nil)
  | cons head tail ih =>
    rw [Entries.put, Entries.put, key.sameKey head.1]
    refine .same_bind _ fun same => ?_
    cases same with
    | true => exact .ok (.cons ⟨head.1, value⟩ tail)
    | false => exact ih.bind fun _ _ rest => .ok (.cons head rest)

abbrev TakenAlike (p : Pairing) (a b : Value × Entries) : Prop :=
  Value.Alike p a.1 b.1 ∧ Alike p a.2 b.2

theorem Alike.take (h : Alike p es fs) (key : Value.Alike p k l) :
    Both (Option.Rel (TakenAlike p)) (es.take k) (fs.take l) := by
  induction h with
  | nil => exact .ok .none
  | cons head tail ih =>
    rw [Entries.take, Entries.take, key.sameKey head.1]
    refine .same_bind _ fun same => ?_
    cases same with
    | true => exact .ok (.some ⟨head.2, tail⟩)
    | false =>
      refine ih.bind fun _ _ taken => .ok ?_
      cases taken with
      | some related => exact .some ⟨related.1, .cons head related.2⟩
      | none => exact .none

theorem Alike.erase (h : Alike p es fs) (key : Value.Alike p k l) :
    Alike p (es.erase k) (fs.erase l) := by
  unfold Entries.erase
  rcases (h.take key).cases with ⟨a, b, here, there, taken⟩ | ⟨e, here, there⟩
  · rw [here, there]
    cases taken with
    | some related => exact related.2
    | none => exact h
  · rw [here, there]
    exact h

theorem Alike.merge (h : Alike p es fs) (more : Alike p gs hs) :
    Alike p (es.merge gs) (fs.merge hs) := by
  unfold Entries.merge
  induction more generalizing es fs with
  | nil => exact h
  | @cons e f _ _ head tail ih =>
    obtain ⟨k, v⟩ := e
    obtain ⟨l, w⟩ := f
    refine ih ?_
    rcases (h.put head.1 head.2).cases with ⟨a, b, here, there, put⟩ | ⟨e, here, there⟩
    · simpa only [here, there] using put
    · simpa only [here, there] using h

end Entries

/-! ## Tables -/

structure Table.Alike (p : Pairing) (t u : Table) : Prop where
  entries : Entries.Alike p t.entries u.entries
  isBlank : t.isBlank = u.isBlank

namespace Table

variable {t u t' u' : Table} {k l v w : Value} {vs ws : List Value} {es fs : Entries}

abbrev ChangeAlike (p : Pairing) (a b : Table × Option Failure) : Prop :=
  Alike p a.1 b.1 ∧ a.2 = b.2

theorem ChangeAlike.cases {a b : Table × Option Failure} (h : ChangeAlike p a b) :
    ∃ t u failure, a = (t, failure) ∧ b = (u, failure) ∧ Alike p t u :=
  ⟨a.1, b.1, a.2, rfl, Prod.ext rfl h.2.symm, h.1⟩

theorem ready_alike (h : Entries.Alike p es fs) : Alike p (.ready es) (.ready fs) := ⟨h, rfl⟩

theorem filled_alike (h : Entries.Alike p es fs) : Alike p (.filled es) (.filled fs) :=
  ⟨h, h.isEmpty⟩

theorem checkKey_alike (key : Value.Alike p k l) : checkKey k = checkKey l := by
  rw [checkKey, checkKey, key.unhashable?]

namespace Alike

theorem keys (h : Alike p t u) : Forall₂ (Value.Alike p) t.keys u.keys := h.entries.keys

theorem find (h : Alike p t u) (key : Value.Alike p k l) :
    Both (Option.Rel (Value.Alike p)) (t.find k) (u.find l) := by
  rw [Table.find, Table.find, checkKey_alike key]
  exact .same_bind _ fun _ => h.entries.find key

theorem has (h : Alike p t u) (key : Value.Alike p k l) : t.has k = u.has l := by
  rw [Table.has, Table.has]
  rcases (h.find key).cases with ⟨a, b, here, there, found⟩ | ⟨e, here, there⟩
  · rw [here, there]
    exact congrArg Except.ok (isSome_of_rel found)
  · rw [here, there]

theorem put (h : Alike p t u) (key : Value.Alike p k l) (value : Value.Alike p v w) :
    ChangeAlike p (t.put k v) (u.put l w) := by
  have changed : Both (Entries.Alike p) (checkKey k >>= fun _ => t.entries.put k v)
      (checkKey l >>= fun _ => u.entries.put l w) := by
    rw [checkKey_alike key]
    exact .same_bind _ fun _ => h.entries.put key value
  unfold Table.put
  rcases changed.cases with ⟨a, b, here, there, put⟩ | ⟨e, here, there⟩
  · rw [here, there]
    exact ⟨ready_alike put, rfl⟩
  · rw [here, there]
    exact ⟨ready_alike h.entries, rfl⟩

theorem putAll (h : Alike p t u) (more : Entries.Alike p es fs) :
    ChangeAlike p (t.putAll es) (u.putAll fs) := by
  induction more generalizing t u with
  | nil => exact ⟨h, rfl⟩
  | cons head tail ih =>
    obtain ⟨t₁, u₁, failure, here, there, alike⟩ := (h.put head.1 head.2).cases
    rw [putAll, putAll, here, there]
    cases failure with
    | none => exact ih alike
    | some e => exact ⟨alike, rfl⟩

/-- What is left of a table after a key has been taken out. -/
abbrev RemovedAlike (p : Pairing) (a b : Value × Table) : Prop :=
  Value.Alike p a.1 b.1 ∧ Alike p a.2 b.2

theorem remove (h : Alike p t u) (key : Value.Alike p k l) :
    Both (Option.Rel (RemovedAlike p)) (t.remove k) (u.remove l) := by
  rw [Table.remove, Table.remove, h.isBlank, checkKey_alike key]
  cases u.isBlank with
  | true => exact .ok .none
  | false =>
    refine .same_bind _ fun _ => (h.entries.take key).bind fun _ _ taken => .ok ?_
    cases taken with
    | some related => exact .some ⟨related.1, ready_alike related.2⟩
    | none => exact .none

theorem clear (h : Alike p t u) : Alike p t.clear u.clear := ⟨.nil, h.isBlank⟩

theorem copy (h : Alike p t u) : Alike p t.copy u.copy := filled_alike h.entries

theorem add (h : Alike p t u) (item : Value.Alike p k l) : ChangeAlike p (t.add k) (u.add l) :=
  h.put item .null

theorem addAll (h : Alike p t u) (items : Forall₂ (Value.Alike p) vs ws) :
    ChangeAlike p (t.addAll vs) (u.addAll ws) :=
  h.putAll (rel_map (fun _ _ item => ⟨item, .null⟩) items)

theorem without (h : Alike p t u) (items : Forall₂ (Value.Alike p) vs ws) :
    Both (Alike p) (t.without vs) (u.without ws) := by
  induction items generalizing t u with
  | nil => exact .ok h
  | cons head tail ih =>
    rw [without, without]
    refine (h.remove head).bind fun _ _ removed => ih ?_
    cases removed with
    | some related => exact related.2
    | none => exact h

theorem common (h : Alike p t u) (into : Alike p t' u') (items : Forall₂ (Value.Alike p) vs ws) :
    Both (Alike p) (t.common t' vs) (u.common u' ws) := by
  induction items generalizing t' u' with
  | nil => exact .ok into
  | cons head tail ih =>
    rw [common, common, h.has head]
    refine .same_bind _ fun isThere => ?_
    cases isThere with
    | false => exact ih into
    | true =>
      obtain ⟨t₁, u₁, failure, here, there, alike⟩ := (into.add head).cases
      rw [here, there]
      cases failure with
      | none => exact ih alike
      | some e => exact .error e

theorem toggled (h : Alike p t u) (items : Forall₂ (Value.Alike p) vs ws) :
    Both (Alike p) (t.toggled vs) (u.toggled ws) := by
  induction items generalizing t u with
  | nil => exact .ok h
  | cons head tail ih =>
    rw [toggled, toggled]
    refine (h.remove head).bind fun _ _ removed => ?_
    cases removed with
    | some related => exact ih related.2
    | none => exact ih (h.add head).1

theorem covers (h : Alike p t u) (items : Forall₂ (Value.Alike p) vs ws) :
    t.covers vs = u.covers ws := by
  induction items with
  | nil => rfl
  | cons head tail ih => rw [Table.covers, Table.covers, h.has head, ih]

theorem allMet {left left' : Entries} (h : Entries.Alike p left left')
    (items : Forall₂ (Value.Alike p) vs ws) : allMet left vs = allMet left' ws := by
  induction items generalizing left left' with
  | nil => rw [Table.allMet, Table.allMet, h.isEmpty]
  | cons head tail ih =>
    rw [Table.allMet, Table.allMet, h.isEmpty, checkKey_alike head]
    rcases (h.take head).cases with ⟨a, b, here, there, taken⟩ | ⟨e, here, there⟩
    · have rest : Entries.Alike p ((a.map (·.2)).getD left) ((b.map (·.2)).getD left') := by
        cases taken with
        | some related => exact related.2
        | none => exact h
      rw [here, there]
      simp only [bind, Except.bind, ih rest]
    · rw [here, there]
      rfl

theorem isWithin (h : Alike p t u) (items : Forall₂ (Value.Alike p) vs ws) :
    t.isWithin vs = u.isWithin ws :=
  allMet h.entries items

theorem equals (h : Alike p t u) (h' : Alike p t' u') : t.equals t' = u.equals u' := by
  have all : ∀ {ks ls : List Value}, Forall₂ (Value.Alike p) ks ls →
      (ks.all fun k => (t'.entries.get? k).isSome) = ls.all fun k => (u'.entries.get? k).isSome := by
    intro ks ls hks
    induction hks with
    | nil => rfl
    | cons head tail ih => rw [all_cons, all_cons, ih, isSome_of_rel (h'.entries.get? head)]
  rw [Table.equals, Table.equals, h.entries.length_eq, h'.entries.length_eq, all h.keys]

end Alike
end Table

/-! ## Stores -/

/-- Cells that are paired are alike, and those to come will be paired in their order. -/
structure CellsAlike {α : Type} (r : Nat → Nat → Prop) (R : α → α → Prop) (xs ys : Array α) :
    Prop where
  get : ∀ {a b : Nat}, r a b → Option.Rel R (xs[a]?) (ys[b]?)
  next : ∀ k, r (xs.size + k) (ys.size + k)

namespace CellsAlike

variable {α : Type} {r : Nat → Nat → Prop} {R : α → α → Prop} {xs ys : Array α} {x y : α}

theorem push (unique : BiUnique r) (h : CellsAlike r R xs ys) (hxy : R x y) :
    CellsAlike r R (xs.push x) (ys.push y) where
  get {a b} paired := by
    have last : a = xs.size ↔ b = ys.size := Relator.rel_eq unique paired (h.next 0)
    rw [Array.getElem?_push, Array.getElem?_push]
    by_cases new : a = xs.size
    · rw [if_pos new, if_pos (last.1 new)]
      exact .some hxy
    · rw [if_neg new, if_neg fun h => new (last.2 h)]
      exact h.get paired
  next k := by
    have := h.next (k + 1)
    rwa [Array.size_push, Array.size_push, Nat.add_assoc, Nat.add_assoc, Nat.add_comm 1 k]

theorem put (unique : BiUnique r) (h : CellsAlike r R xs ys) {a b : Nat} (paired : r a b)
    (hxy : R x y) : CellsAlike r R (xs.setIfInBounds a x) (ys.setIfInBounds b y) where
  get {c d} paired' := by
    have same : a = c ↔ b = d := Relator.rel_eq unique paired paired'
    have there := h.get paired
    rw [Array.getElem?_setIfInBounds, Array.getElem?_setIfInBounds]
    by_cases here : a = c
    · rw [if_pos here, if_pos (same.1 here)]
      by_cases inside : a < xs.size
      · have inside' : b < ys.size := by
          rw [Array.getElem?_eq_getElem inside] at there
          by_contra outside
          rw [Array.getElem?_eq_none (Nat.le_of_not_lt outside)] at there
          cases there
        rw [if_pos inside, if_pos inside']
        exact .some hxy
      · have outside' : ¬ b < ys.size := by
          rw [Array.getElem?_eq_none (Nat.le_of_not_lt inside)] at there
          intro inside'
          rw [Array.getElem?_eq_getElem inside'] at there
          cases there
        rw [if_neg inside, if_neg outside']
        exact .none
    · rw [if_neg here, if_neg fun h => here (same.2 h)]
      exact h.get paired'
  next k := by
    rw [Array.size_setIfInBounds, Array.size_setIfInBounds]
    exact h.next k

end CellsAlike

/-- Two lists have items that are alike, and as many loops run over them. -/
structure ListCell.Alike (p : Pairing) (c d : ListCell) : Prop where
  items : Forall₂ (Value.Alike p) c.items d.items
  loops : c.loops = d.loops

/-- Two stores are the same up to a pairing, as far as it goes. -/
structure Store.Alike (p : Pairing) (s t : Store) : Prop where
  lists : CellsAlike p.lists (ListCell.Alike p) s.lists t.lists
  dicts : CellsAlike p.dicts (Table.Alike p) s.dicts t.dicts
  sets : CellsAlike p.sets (Table.Alike p) s.sets t.sets
  handles : ∀ k, p.handles (s.handles + k) (t.handles + k)
  copies : p.objects → s.copies = t.copies

/-- References that are as far beyond some place as others are beyond another. -/
def Pairing.Beyond (m n a b : Nat) : Prop := m ≤ a ∧ b + m = a + n

theorem Pairing.beyond_unique (m n : Nat) : BiUnique (Beyond m n) :=
  ⟨fun _ _ _ h h' => by unfold Beyond at h h'; omega, fun _ _ _ h h' => by unfold Beyond at h h'; omega⟩

/-- The pairing of the containers to come: none that is there is met, nor any object. -/
def Pairing.ahead (s t : Store) (templates : String → Prop) : Pairing where
  lists := Beyond s.lists.size t.lists.size
  dicts := Beyond s.dicts.size t.dicts.size
  sets := Beyond s.sets.size t.sets.size
  handles := Beyond s.handles t.handles
  objects := False
  templates := templates
  lists_unique := beyond_unique _ _
  dicts_unique := beyond_unique _ _
  sets_unique := beyond_unique _ _
  handles_unique := beyond_unique _ _

theorem CellsAlike.ahead {α : Type} (R : α → α → Prop) (xs ys : Array α) :
    CellsAlike (Pairing.Beyond xs.size ys.size) R xs ys where
  get {a b} paired := by
    unfold Pairing.Beyond at paired
    rw [Array.getElem?_eq_none (by omega), Array.getElem?_eq_none (by omega)]
    exact .none
  next k := by
    unfold Pairing.Beyond
    omega

/-- Whatever is in two stores, they are alike as far as containers to come are concerned. -/
theorem Store.alike_ahead (s t : Store) (templates : String → Prop) :
    Store.Alike (Pairing.ahead s t templates) s t where
  lists := .ahead _ _ _
  dicts := .ahead _ _ _
  sets := .ahead _ _ _
  handles k := ⟨Nat.le_add_right _ _, by omega⟩
  copies := False.elim

inductive TableRef.Alike (p : Pairing) : TableRef → TableRef → Prop
  | dict {a b} (paired : p.dicts a b) : Alike p (.dict a) (.dict b)
  | set {a b} (paired : p.sets a b) : Alike p (.set a) (.set b)

namespace Store.Alike

variable {s t : Store} {a b : Nat}

theorem listCell (h : Alike p s t) (paired : p.lists a b) :
    ListCell.Alike p (s.listCell a) (t.listCell b) :=
  getD_of_rel (h.lists.get paired) ⟨.nil, rfl⟩

theorem list (h : Alike p s t) (paired : p.lists a b) :
    Forall₂ (Value.Alike p) (s.list a) (t.list b) :=
  (h.listCell paired).items

theorem table (h : Alike p s t) {ref ref' : TableRef} (paired : TableRef.Alike p ref ref') :
    Table.Alike p (s.table ref) (t.table ref') := by
  have empty : Table.Alike p (.filled []) (.filled []) := filled_alike .nil
  cases paired with
  | dict paired => exact getD_of_rel (h.dicts.get paired) empty
  | set paired => exact getD_of_rel (h.sets.get paired) empty

theorem dict (h : Alike p s t) (paired : p.dicts a b) :
    Entries.Alike p (s.dict a) (t.dict b) :=
  (h.table (.dict paired)).entries

theorem set (h : Alike p s t) (paired : p.sets a b) :
    Forall₂ (Value.Alike p) (s.set a) (t.set b) :=
  (h.table (.set paired)).keys

theorem setListCell (h : Alike p s t) (paired : p.lists a b) {c d : ListCell}
    (cells : ListCell.Alike p c d) : Alike p (s.setListCell a c) (t.setListCell b d) :=
  { h with lists := h.lists.put p.lists_unique paired cells }

theorem setTable (h : Alike p s t) {ref ref' : TableRef} (paired : TableRef.Alike p ref ref')
    {t₁ t₂ : Table} (tables : Table.Alike p t₁ t₂) :
    Alike p (s.setTable ref t₁) (t.setTable ref' t₂) := by
  cases paired with
  | dict paired => exact { h with dicts := h.dicts.put p.dicts_unique paired tables }
  | set paired => exact { h with sets := h.sets.put p.sets_unique paired tables }

end Store.Alike

/-! ## What is seen of values -/

mutual

theorem Value.Alike.view {v w : Value} (h : Value.Alike p v w) {l d s l' d' s' : Nat → Datum}
    (lists : ∀ a b, p.lists a b → l a = l' b) (dicts : ∀ a b, p.dicts a b → d a = d' b)
    (sets : ∀ a b, p.sets a b → s a = s' b) : v.view l d s = w.view l' d' s' := by
  cases h with
  | tuple items => exact congrArg Datum.tuple (Value.viewAll_alike items lists dicts sets)
  | list paired => exact lists _ _ paired
  | dict paired => exact dicts _ _ paired
  | set paired => exact sets _ _ paired
  | _ => rfl

theorem Value.viewAll_alike {vs ws : List Value} (h : Forall₂ (Value.Alike p) vs ws)
    {l d s l' d' s' : Nat → Datum} (lists : ∀ a b, p.lists a b → l a = l' b)
    (dicts : ∀ a b, p.dicts a b → d a = d' b) (sets : ∀ a b, p.sets a b → s a = s' b) :
    viewAll l d s vs = viewAll l' d' s' ws := by
  cases h with
  | nil => rfl
  | cons head tail =>
    rw [viewAll, viewAll, head.view lists dicts sets, viewAll_alike tail lists dicts sets]

end

inductive Place.Alike (p : Pairing) : Place → Place → Prop
  | list {a b} (paired : p.lists a b) : Alike p (.list a) (.list b)
  | dict {a b} (paired : p.dicts a b) : Alike p (.dict a) (.dict b)
  | set {a b} (paired : p.sets a b) : Alike p (.set a) (.set b)

theorem Place.alike_unique : BiUnique (Place.Alike p) := by
  constructor
  · rintro _ _ _ (paired | paired | paired) (paired' | paired' | paired')
    · rw [p.lists_unique.1 paired paired']
    · rw [p.dicts_unique.1 paired paired']
    · rw [p.sets_unique.1 paired paired']
  · rintro _ _ _ (paired | paired | paired) (paired' | paired' | paired')
    · rw [p.lists_unique.2 paired paired']
    · rw [p.dicts_unique.2 paired paired']
    · rw [p.sets_unique.2 paired paired']

namespace Place.Alike

variable {a b : Place} {path path' : List Place}

theorem hidden (h : Alike p a b) : a.hidden = b.hidden := by
  cases h <;> rfl

theorem isList (h : Alike p a b) : a.isList = b.isList := by
  cases h <;> rfl

theorem under (h : Alike p a b) (paths : Forall₂ (Alike p) path path') :
    Forall₂ (Alike p) (a.under path) (b.under path') := by
  have lists : path.all Place.isList = path'.all Place.isList := by
    induction paths with
    | nil => rfl
    | cons first _ ih => rw [all_cons, all_cons, first.isList, ih]
  cases h with
  | list paired => exact .cons (.list paired) paths
  | set paired => exact .cons (.set paired) paths
  | dict paired =>
    unfold Place.under
    dsimp only
    rw [lists]
    split
    · exact .cons (.dict paired) .nil
    · exact .cons (.dict paired) paths

end Place.Alike

namespace Store

def places (s : Store) : List Place :=
  (List.range s.lists.size).map .list ++ (List.range s.dicts.size).map .dict ++
    (List.range s.sets.size).map .set

variable {s t : Store}

theorem length_places (s : Store) : s.places.length = s.size := by
  simp [places, size, Nat.add_assoc]

theorem written_of_not_mem {place : Place} (h : place ∉ s.places) (see see' : Value → Datum) :
    s.written see place = s.written see' place := by
  cases place with
  | list r =>
    have outside : s.lists.size ≤ r := by
      by_contra inside
      exact h (by simp [places]; omega)
    have empty : s.list r = [] := by
      rw [list, listCell, Array.getElem?_eq_none outside]
      rfl
    rw [written, written, empty]
    rfl
  | dict r =>
    have outside : s.dicts.size ≤ r := by
      by_contra inside
      exact h (by simp [places]; omega)
    have empty : s.dict r = [] := by
      rw [dict, table, Array.getElem?_eq_none outside]
      rfl
    rw [written, written, empty]
    rfl
  | set r =>
    have outside : s.sets.size ≤ r := by
      by_contra inside
      exact h (by simp [places]; omega)
    have empty : s.set r = [] := by
      rw [set, table, Array.getElem?_eq_none outside]
      rfl
    rw [written, written, empty]
    rfl

/-- More is seen at no place of a value as soon as no more is seen in the containers below it. -/
theorem viewWithin_of_written {n m : Nat} {path : List Place}
    (below : ∀ place, place ∉ path → s.written (s.viewWithin n (place.under path)) place =
      s.written (s.viewWithin m (place.under path)) place) (v : Value) :
    s.viewWithin (n + 1) path v = s.viewWithin (m + 1) path v := by
  have seen : ∀ place : Place,
      (if place ∈ path then place.hidden else s.written (s.viewWithin n (place.under path)) place) =
        if place ∈ path then place.hidden
        else s.written (s.viewWithin m (place.under path)) place := by
    intro place
    by_cases known : place ∈ path
    · rw [if_pos known, if_pos known]
    · rw [if_neg known, if_neg known, below place known]
  exact congrArg (fun f : Place → Datum =>
    v.view (fun r => f (.list r)) (fun r => f (.dict r)) fun r => f (.set r)) (funext seen)

/-- How many containers may still come below a path: it grows to all of them at most, and once more
behind the first dict. -/
def room (s : Store) (path : List Place) : Nat :=
  (if path.all Place.isList then s.size + 1 else 0) + (s.size - path.length)

section Under

variable {path : List Place} {place : Place}

theorem under_subset : place.under path ⊆ place :: path := by
  unfold Place.under
  split
  · split
    · exact cons_subset_cons _ (nil_subset _)
    · exact Subset.refl _
  · exact Subset.refl _

theorem under_nodup (nodup : path.Nodup) (missing : place ∉ path) : (place.under path).Nodup := by
  unfold Place.under
  split
  · split
    · exact pairwise_singleton _ _
    · exact nodup_cons.2 ⟨missing, nodup⟩
  · exact nodup_cons.2 ⟨missing, nodup⟩

/-- A path with a container more has less room. -/
theorem room_under (nodup : path.Nodup) (inside : path ⊆ s.places) (missing : place ∉ path)
    (there : place ∈ s.places) : s.room (place.under path) < s.room path := by
  have longer := ((nodup_cons.2 ⟨missing, nodup⟩).subperm
    (cons_subset.2 ⟨there, inside⟩)).length_le
  rw [length_cons, length_places] at longer
  have grown : s.room (place :: path) < s.room path := by
    unfold room
    rw [all_cons, length_cons]
    cases place.isList <;> cases path.all Place.isList <;> simp <;> omega
  unfold Place.under
  split
  · split
    · next lists =>
      rw [room, room, if_pos lists]
      simp [Place.isList]
      omega
    · exact grown
  · exact grown

end Under

/-- Following two references for each container sees everything, so following still more makes no
difference. -/
theorem viewWithin_succ (s : Store) (n : Nat) (path : List Place) (nodup : path.Nodup)
    (inside : path ⊆ s.places) (enough : s.room path ≤ n) (v : Value) :
    s.viewWithin (n + 1) path v = s.viewWithin (n + 2) path v := by
  induction n generalizing path v with
  | zero =>
    -- The path has room for no other container.
    refine viewWithin_of_written (fun place missing => written_of_not_mem (fun there => ?_) _ _) v
    have smaller := room_under nodup inside missing there
    omega
  | succ n ih =>
    refine viewWithin_of_written (fun place missing => ?_) v
    by_cases there : place ∈ s.places
    · have smaller := room_under nodup inside missing there
      have below := ih (place.under path) (under_nodup nodup missing)
        (List.Subset.trans under_subset (cons_subset.2 ⟨there, inside⟩)) (by omega)
      rw [funext below]
    · exact written_of_not_mem there _ _

theorem viewWithin_eq_view (s : Store) (k : Nat) (v : Value) :
    s.viewWithin (2 * s.size + k + 2) [] v = s.view v := by
  induction k with
  | zero => rfl
  | succ k ih =>
    rw [← ih]
    refine (viewWithin_succ s (2 * s.size + k + 1) [] nodup_nil (nil_subset _) ?_ v).symm
    simp [room]
    omega

theorem Alike.written (h : Alike p s t) {place place' : Place} (paired : Place.Alike p place place')
    {see see' : Value → Datum} (hsee : ∀ v w, Value.Alike p v w → see v = see' w) :
    s.written see place = t.written see' place' := by
  cases paired with
  | list paired => rw [Store.written, Store.written, map_eq_of_rel (h.list paired) hsee]
  | dict paired =>
    rw [Store.written, Store.written, map_eq_of_rel (h.dict paired).keys hsee,
      map_eq_of_rel (h.dict paired).values hsee]
  | set paired => rw [Store.written, Store.written, map_eq_of_rel (h.set paired) hsee]

theorem Alike.viewWithin (h : Alike p s t) (n : Nat) {path path' : List Place}
    (paths : Forall₂ (Place.Alike p) path path') {v w : Value} (hvw : Value.Alike p v w) :
    s.viewWithin n path v = t.viewWithin n path' w := by
  induction n generalizing path path' v w with
  | zero => exact hvw.view (fun _ _ _ => rfl) (fun _ _ _ => rfl) fun _ _ _ => rfl
  | succ n ih =>
    have seen : ∀ {a b}, Place.Alike p a b →
        (if a ∈ path then a.hidden else s.written (s.viewWithin n (a.under path)) a) =
          if b ∈ path' then b.hidden else t.written (t.viewWithin n (b.under path')) b :=
      fun paired => if_congr (rel_mem Place.alike_unique paired paths) paired.hidden
        (h.written paired fun _ _ => ih (paired.under paths))
    exact hvw.view (fun _ _ paired => seen (.list paired)) (fun _ _ paired => seen (.dict paired))
      fun _ _ paired => seen (.set paired)

/-- **Values that are alike look the same.** -/
theorem Alike.view (h : Alike p s t) {v w : Value} (hvw : Value.Alike p v w) :
    s.view v = t.view w := by
  rw [← s.viewWithin_eq_view (2 * t.size), ← t.viewWithin_eq_view (2 * s.size),
    Nat.add_comm (2 * t.size)]
  exact h.viewWithin _ .nil hvw

end Store

/-! ## Comparing -/

namespace Compare

variable {below below' : Below} {xs ys xs' ys' : List Value}

theorem sets_alike (r : Relation) {t u t' u' : Table} (h : Table.Alike p t u)
    (h' : Table.Alike p t' u') : sets r t t' = sets r u u' := by
  unfold sets
  rw [h.entries.length_eq, h'.entries.length_eq, h.equals h', h.covers h'.keys,
    h.isWithin h'.keys]

section Below

variable
  (hbelow : ∀ r v w v' w', Value.Alike p v w → Value.Alike p v' w' → below r v v' = below' r w w')

include hbelow

theorem sequencesFrom_alike (r : Relation) (lengths : Ordering) (hxy : Forall₂ (Value.Alike p) xs ys)
    (hxy' : Forall₂ (Value.Alike p) xs' ys') :
    sequencesFrom below r lengths xs xs' = sequencesFrom below' r lengths ys ys' := by
  induction hxy generalizing xs' ys' with
  | nil => rfl
  | cons head tail ih =>
    cases hxy' with
    | nil => rfl
    | cons head' tail' =>
      have heads := fun r => hbelow r _ _ _ _ head head'
      simp only [sequencesFrom, heads, ih tail']

theorem sequences_alike (r : Relation) (hxy : Forall₂ (Value.Alike p) xs ys) (hxy' : Forall₂ (Value.Alike p) xs' ys') :
    sequences below r xs xs' = sequences below' r ys ys' := by
  rw [sequences, sequences, hxy.length_eq, hxy'.length_eq, sequencesFrom_alike hbelow r _ hxy hxy']

theorem entriesIn_alike {es fs es' fs' : Entries} (h : Entries.Alike p es fs)
    (h' : Entries.Alike p es' fs') :
    entriesIn below es' es = entriesIn below' fs' fs := by
  induction h with
  | nil => rfl
  | @cons e f _ _ head tail ih =>
    have found := h'.get? head.1
    rw [entriesIn, entriesIn]
    generalize es'.get? e.1 = x at found ⊢
    generalize fs'.get? f.1 = y at found ⊢
    cases found with
    | none => rfl
    | some related =>
      change (below .eq _ _ >>= _) = (below' .eq _ _ >>= _)
      rw [hbelow .eq _ _ _ _ head.2 related, ih]

end Below

theorem within_alike {s t : Store} (h : Store.Alike p s t) (depth : Nat) (r : Relation)
    {v w v' w' : Value} (hvw : Value.Alike p v w) (hvw' : Value.Alike p v' w') :
    within s depth r v v' = within t depth r w w' := by
  induction depth generalizing r v w v' w' with
  | zero => rfl
  | succ depth ih =>
    have below : ∀ r v w v' w', Value.Alike p v w → Value.Alike p v' w' →
        within s depth r v v' = within t depth r w w' := fun r _ _ _ _ => ih r
    -- values of different sorts are unlike on both sides, so that only equal sorts are compared
    cases hvw with
    | list paired =>
      cases hvw' with
      | list paired' => exact sequences_alike below r (h.list paired) (h.list paired')
      | _ => rfl
    | tuple items =>
      cases hvw' with
      | tuple items' => exact sequences_alike below r items items'
      | _ => rfl
    | dict paired =>
      cases hvw' with
      | dict paired' =>
        have left := h.dict paired
        have right := h.dict paired'
        rw [within, within, dictsEqual, dictsEqual, left.length_eq, right.length_eq,
          entriesIn_alike below left right]
        rfl
      | _ => rfl
    | set paired =>
      cases hvw' with
      | set paired' => exact sets_alike r (h.table (.set paired)) (h.table (.set paired'))
      | _ => rfl
    | object o met paired =>
      cases hvw' with
      | object o' met' paired' =>
        rw [within, within, beq_of_paired p.handles_unique paired paired']
        rfl
      | _ => rfl
    | method name paired owners =>
      cases hvw' with
      | method name' paired' owners' =>
        rw [within, within, beq_of_paired p.handles_unique paired paired']
        rfl
      | _ => rfl
    | _ => cases hvw' <;> rfl

end Compare

/-! ## What is asked of values -/

theorem numbered_alike {vs ws : List Value} (h : Forall₂ (Value.Alike p) vs ws) (i : Nat) :
    Entries.Alike p (numbered i vs) (numbered i ws) := by
  induction h generalizing i with
  | nil => exact .nil
  | cons head tail ih => exact .cons ⟨.int i, head⟩ (ih (i + 1))

namespace Store.Alike

variable {s t : Store} {v w x y : Value}

theorem compare (h : Alike p s t) (r : Relation) (hvw : Value.Alike p v w)
    (hxy : Value.Alike p x y) : s.compare r v x = t.compare r w y :=
  Compare.within_alike h _ r hvw hxy

theorem same (h : Alike p s t) (hvw : Value.Alike p v w) (hxy : Value.Alike p x y) :
    s.same v x = t.same w y := by
  rw [Store.same, Store.same, hvw.sort, hxy.sort, h.compare .eq hvw hxy]

theorem pairs (h : Alike p s t) (hvw : Value.Alike p v w) :
    Entries.Alike p (s.pairs v) (t.pairs w) := by
  cases hvw with
  | dict paired => exact h.dict paired
  | list paired => exact numbered_alike (h.list paired) 0
  | tuple items => exact numbered_alike items 0
  | set paired => exact numbered_alike (h.set paired) 0
  | _ => exact .nil

theorem items? (h : Alike p s t) (hvw : Value.Alike p v w) :
    Option.Rel (Forall₂ (Value.Alike p)) (s.items? v) (t.items? w) := by
  cases hvw with
  | dict paired => exact .some (h.dict paired).keys
  | list paired => exact .some (h.list paired)
  | tuple items => exact .some items
  | set paired => exact .some (h.set paired)
  | _ => exact .none

theorem truth (h : Alike p s t) (hvw : Value.Alike p v w) : s.truth v = t.truth w := by
  cases hvw with
  | list paired => exact congrArg not (isEmpty_of_rel (h.list paired))
  | tuple items => exact congrArg not (isEmpty_of_rel items)
  | dict paired => exact congrArg not (h.dict paired).isEmpty
  | set paired => exact congrArg not (isEmpty_of_rel (h.set paired))
  | _ => rfl

theorem isEmpty (h : Alike p s t) (hvw : Value.Alike p v w) : s.isEmpty v = t.isEmpty w := by
  cases hvw with
  | list paired => exact isEmpty_of_rel (h.list paired)
  | tuple items => exact isEmpty_of_rel items
  | dict paired => exact (h.dict paired).isEmpty
  | set paired => exact isEmpty_of_rel (h.set paired)
  | _ => rfl

theorem holds (h : Alike p s t) (hvw : Value.Alike p v w) : Loop.holds s v = Loop.holds t w := by
  have truth := h.truth hvw
  cases hvw with
  | text s => rfl
  | _ => exact truth

theorem contains (h : Alike p s t) (hvw : Value.Alike p v w) (hxy : Value.Alike p x y) :
    s.contains v x = t.contains w y := by
  have same := fun v w (hvw : Value.Alike p v w) => h.same hvw hxy
  cases hvw with
  | text text => rw [Store.contains, Store.contains, h.view hxy]
  | dict paired => exact any_of_rel (h.dict paired).values same
  | list paired => exact any_of_rel (h.list paired) same
  | tuple items => exact any_of_rel items same
  | _ => rfl

end Store.Alike
end Stencil
