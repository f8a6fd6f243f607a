import Mathlib.Data.List.Nodup
import Stencil.Proofs.Likeness
import Stencil.Proofs.Storage

/-!
# Plain data comes back

Plain data is given to templates as values and read back from values as plain data. On the way a
list becomes a list of the store and a map a dict. A map has no order, but the list of its entries
has one; `Plain.Same` says that two pieces of data differ at most in that, and in how an empty list
came about.

`Plain.datum` is what data looks like as a value: its maps sorted by their names. Making a value of
the data makes just that, wherever in the store its containers come to stand
(`Plain.toValue_shows`), and all else is about `datum` alone: data that is the same looks the same
(`Plain.Same.datum`), and can be read off again (`Plain.same_toPlain`).
-/

namespace Stencil

open List Value

/-! ## Entries sorted by name -/

section
variable {α β : Type} {es fs : List (String × α)}

def byName (es : List (String × α)) : List (String × α) := es.mergeSort fun a b => a.1 ≤ b.1

theorem byName_perm (es : List (String × α)) : (byName es).Perm es := mergeSort_perm es _

theorem byName_sorted (es : List (String × α)) : (byName es).Pairwise fun a b => a.1 ≤ b.1 := by
  have sorted : (byName es).Pairwise fun a b => decide (a.1 ≤ b.1) = true := by
    refine pairwise_mergeSort (fun a b c hab hbc => ?_) (fun a b => ?_) es
    · exact decide_eq_true (String.le_trans (of_decide_eq_true hab) (of_decide_eq_true hbc))
    · rw [Bool.or_eq_true, decide_eq_true_iff, decide_eq_true_iff]
      exact String.le_total a.1 b.1
  exact sorted.imp of_decide_eq_true

theorem byName_map (f : String × α → β) (es : List (String × α)) :
    byName (es.map fun e => (e.1, f e)) = (byName es).map fun e => (e.1, f e) := by
  unfold byName
  rw [map_mergeSort]
  exact fun _ _ _ _ => rfl

/-- Entries with different names are sorted in one way. -/
theorem byName_eq_of_perm (distinct : (es.map (·.1)).Nodup) (h : es.Perm fs) :
    byName es = byName fs := by
  have alike := (byName_perm es).trans (h.trans (byName_perm fs).symm)
  refine alike.eq_of_pairwise (fun a b ha hb hab hba => ?_) (byName_sorted es) (byName_sorted fs)
  have here (e : String × α) (he : e ∈ byName es) : e ∈ es := (byName_perm es).subset he
  exact inj_on_of_nodup_map distinct (here a ha) (here b (alike.symm.subset hb))
    (String.le_antisymm hab hba)

theorem byName_rel {R : α → β → Prop} {xs : List α} {ys : List β} (h : Forall₂ R xs ys)
    (names : List String) :
    Forall₂ (fun e f => e.1 = f.1 ∧ R e.2 f.2) (byName (names.zip xs)) (byName (names.zip ys)) := by
  obtain ⟨lengths, related⟩ := forall₂_iff_zip.1 h
  have mapped {γ : Type} (f : α × β → γ) : byName (names.zip ((xs.zip ys).map f)) =
      (byName (names.zip (xs.zip ys))).map fun e => (e.1, f e.2) := by
    rw [zip_map_right, ← byName_map fun e => f e.2]
    rfl
  have left := mapped Prod.fst
  have right := mapped Prod.snd
  rw [map_fst_zip (Nat.le_of_eq lengths)] at left
  rw [map_snd_zip (Nat.le_of_eq lengths.symm)] at right
  rw [left, right, forall₂_map_left_iff, forall₂_map_right_iff, forall₂_same]
  exact fun e he => ⟨rfl, related (of_mem_zip ((byName_perm _).subset he)).2⟩

theorem byName_ascending (distinct : (es.map (·.1)).Nodup) :
    ((byName es).map (·.1)).Pairwise (· < ·) := by
  have names : ((byName es).map (·.1)).Nodup := ((byName_perm es).map _).nodup_iff.2 distinct
  have sorted : ((byName es).map (·.1)).Pairwise (· ≤ ·) := pairwise_map.2 (byName_sorted es)
  exact (sorted.and names).imp fun h => String.not_le.1 fun back => h.2 (String.le_antisymm h.1 back)

end

/-! ## Data -/

namespace Plain

/-- Data made of null, booleans, integers of 64 bits, doubles, texts, lists and maps. -/
inductive Simple : Plain → Prop
  | null : Simple .null
  | bool (b : Bool) : Simple (.bool b)
  | int {i : Int} (fits : Decimal.fitsInt64 i = true) : Simple (.int i)
  | float (f : Float) : Simple (.float f)
  | text (t : String) : Simple (.text t)
  | unset : Simple .unset
  | list {items : List Plain} (simple : ∀ p ∈ items, Simple p) : Simple (.list anything items)
  | map {keys values : List Plain} {names : List String} (texts : keys = names.map .text)
    (lengths : names.length = values.length) (distinct : names.Nodup)
    (simple : ∀ p ∈ values, Simple p) : Simple (.map keys values)

/-- Data that is the same but for the order of the entries of maps and for lists that were never
made. -/
inductive Same : Plain → Plain → Prop
  | refl (p : Plain) : Same p p
  | unset : Same .unset (.list anything [])
  | list {ps qs : List Plain} (items : Forall₂ Same ps qs) :
    Same (.list anything ps) (.list anything qs)
  | map {keys others ps qs rs : List Plain} (values : Forall₂ Same ps qs)
    (order : (keys.zip qs).Perm (others.zip rs)) (lengths : others.length = rs.length) :
    Same (.map keys ps) (.map others rs)

def name : Plain → String
  | text t => t
  | _ => ""

mutual

/-- What data looks like as a value. -/
def datum : Plain → Datum
  | null => .null
  | bool b => .bool b
  | int i => .int i
  | float f => .float f
  | text t => .text t
  | list _ items => .list (data items)
  | unset => .list []
  | map keys values =>
    let es := byName ((keys.map name).zip (data values))
    .dict (es.map fun e => .text e.1) (es.map (·.2))
  | _ => .hidden ""

def data : List Plain → List Datum
  | [] => []
  | p :: ps => datum p :: data ps

end

theorem data_eq_map (ps : List Plain) : data ps = ps.map datum := by
  induction ps with
  | nil => rfl
  | cons p ps ih => rw [data, ih, map_cons]

theorem name_texts (names : List String) : (names.map text).map name = names := by
  rw [map_map]
  exact map_id names

theorem zip_data (keys ps : List Plain) :
    (keys.map name).zip (data ps) = (keys.zip ps).map fun e => (e.1.name, e.2.datum) := by
  rw [data_eq_map, zip_map]
  rfl

theorem names_zip {α : Type} {names : List String} {values : List α}
    (lengths : names.length = values.length) : (names.zip values).map (·.1) = names :=
  map_fst_zip (Nat.le_of_eq lengths)

mutual

theorem Same.datum {p q : Plain} (h : Same p q) (hp : p.Simple) : p.datum = q.datum := by
  cases h with
  | refl | unset => rfl
  | list items =>
    cases hp with
    | list simple => rw [Plain.datum, Plain.datum, data_same items simple]
  | @map keys others ps qs rs values order =>
    cases hp with
    | @map _ _ names texts lengths distinct simple =>
      have sorted : byName ((keys.map name).zip (data qs)) =
          byName ((others.map name).zip (data rs)) := by
        refine byName_eq_of_perm ?_ ?_
        · rw [← data_same values simple, texts, name_texts,
            names_zip (by rw [lengths, data_eq_map, length_map])]
          exact distinct
        · rw [zip_data, zip_data]
          exact order.map _
      rw [Plain.datum, Plain.datum, data_same values simple, sorted]

theorem data_same {ps qs : List Plain} (h : Forall₂ Same ps qs) (simple : ∀ p ∈ ps, p.Simple) :
    data ps = data qs := by
  cases h with
  | nil => rfl
  | cons first rest =>
    rw [data, data, first.datum (simple _ (.head _)),
      data_same rest fun p hp => simple p (.tail _ hp)]

end

/-! ## Reading data off -/

theorem toPlains_eq_map (ds : List Datum) : Datum.toPlains ds = ds.map Datum.toPlain := by
  induction ds with
  | nil => rfl
  | cons d ds ih => rw [Datum.toPlains, ih, map_cons]

theorem foldl_of_nodup {α κ : Type} (key : α → κ) {put : List α → α → List α} (acc es : List α)
    (distinct : ((acc ++ es).map key).Nodup)
    (hput : ∀ acc, ∀ e ∈ es, key e ∉ acc.map key → put acc e = acc ++ [e]) :
    es.foldl put acc = acc ++ es := by
  induction es generalizing acc with
  | nil => exact (append_nil acc).symm
  | cons e es ih =>
    have new : key e ∉ acc.map key := by
      rw [map_append, nodup_append] at distinct
      exact fun old => distinct.2.2 _ old _ (mem_map_of_mem (.head _)) rfl
    rw [foldl_cons, hput acc e (.head _) new,
      ih _ (by rwa [append_assoc]) fun acc e he => hput acc e (.tail _ he), append_assoc]
    rfl

theorem lastWins_of_nodup {es : List (String × Plain)} (distinct : (es.map (·.1)).Nodup) :
    lastWins es = es := by
  refine foldl_of_nodup (·.1) [] es distinct fun acc e _ new => ?_
  have others : acc.filter (·.1 != e.1) = acc :=
    filter_eq_self.2 fun f hf => bne_iff_ne.2 fun same => new (same ▸ mem_map_of_mem hf)
  exact congrArg (· ++ [e]) others

theorem toPlain_dict {es : List (String × Datum)} (distinct : (es.map (·.1)).Nodup) :
    (Datum.dict (es.map fun e => .text e.1) (es.map (·.2))).toPlain =
      .map (es.map fun e => .text e.1) (es.map fun e => e.2.toPlain) := by
  have entries : ((es.map fun e => Datum.text e.1).map Datum.print).zip
      (Datum.toPlains (es.map (·.2))) = es.map fun e => (e.1, e.2.toPlain) := by
    rw [toPlains_eq_map, map_map, map_map, zip_map']
    rfl
  have names : (es.map fun e => (e.1, e.2.toPlain)).map (·.1) = es.map (·.1) := map_map
  rw [Datum.toPlain, entries, lastWins_of_nodup (names.symm ▸ distinct), ofEntries, map_map,
    map_map]
  rfl

/-- Plain data never contains itself. -/
theorem not_endless {p : Plain} (hp : p.Simple) : p.datum.endless true = false := by
  induction hp with
  | list simple ih =>
    rw [datum, Datum.endless, Datum.someEndless_eq_any, data_eq_map, any_map, any_eq_false]
    exact fun p hp => Bool.eq_false_iff.1 (ih p hp)
  | @map keys values names texts lengths distinct simple ih =>
    rw [datum, Datum.endless, Datum.someEndless_eq_any, Bool.true_and, any_map, any_eq_false]
    intro e he
    have among := (byName_perm _).mem_iff.1 he
    rw [zip_data] at among
    obtain ⟨pair, hpair, rfl⟩ := mem_map.1 among
    exact Bool.eq_false_iff.1 (ih _ (of_mem_zip hpair).2)
  | _ => rfl

/-- **Data is read off its looks as it was.** -/
theorem same_toPlain {p : Plain} (hp : p.Simple) : Same p p.datum.toPlain := by
  induction hp with
  | null | bool | float | text => exact .refl _
  | int fits =>
    rw [datum, Datum.toPlain, if_pos fits]
    exact .refl _
  | unset => exact .unset
  | list simple ih =>
    rw [datum, Datum.toPlain, toPlains_eq_map, data_eq_map, map_map]
    exact .list (forall₂_map_right_iff.2 (forall₂_same.2 ih))
  | @map keys values names texts lengths distinct simple ih =>
    have unsorted : ((keys.map name).zip (data values)).map (·.1) = names := by
      rw [texts, name_texts, names_zip (by rw [lengths, data_eq_map, length_map])]
    have sorted := byName_perm ((keys.map name).zip (data values))
    rw [datum, toPlain_dict ((sorted.map _).nodup_iff.2 (unsorted.symm ▸ distinct))]
    refine .map (forall₂_map_right_iff.2 (forall₂_same.2 ih)) ?_ ?_
    · rw [zip_map']
      refine .trans ?_ (sorted.map _).symm
      rw [zip_data, map_map, zip_map_right]
      refine .of_eq (map_congr_left fun e he => ?_)
      obtain ⟨n, -, same⟩ := mem_map.1 (texts ▸ (of_mem_zip he).1)
      have key : e.1 = text e.1.name := by rw [← same]; rfl
      exact Prod.ext key rfl
    · rw [length_map, length_map]

end Plain

/-! ## Dicts -/

/-- What is inside of something that is looked at. -/
inductive Datum.Inside : Datum → Datum → Prop
  | self (d : Datum) : Inside d d
  | item {items : List Datum} {x d : Datum} (member : x ∈ items) (rest : Inside d x) :
    Inside d (.list items)
  | value {keys values : List Datum} {x d : Datum} (member : x ∈ values) (rest : Inside d x) :
    Inside d (.dict keys values)

namespace Plain

/-- **Dicts list their names in order.** -/
theorem names_ascending {p : Plain} (hp : p.Simple) {keys values : List Datum}
    (h : Datum.Inside (.dict keys values) p.datum) :
    ∃ names : List String, keys = names.map .text ∧ names.Pairwise (· < ·) := by
  induction hp with
  | null | bool | int | float | text => cases h
  | unset =>
    cases h with
    | item member => cases member
  | list simple ih =>
    cases h with
    | item member rest =>
      rw [data_eq_map] at member
      obtain ⟨p, hp, rfl⟩ := mem_map.1 member
      exact ih p hp rest
  | @map _ ps names texts lengths distinct simple ih =>
    have unsorted : ((names.zip (data ps)).map (·.1)) = names :=
      names_zip (by rw [lengths, data_eq_map, length_map])
    rw [datum, texts, name_texts] at h
    cases h with
    | self =>
      refine ⟨(byName (names.zip (data ps))).map (·.1), by rw [map_map]; rfl, ?_⟩
      exact byName_ascending (unsorted.symm ▸ distinct)
    | value member rest =>
      obtain ⟨e, he, rfl⟩ := mem_map.1 member
      have value := (of_mem_zip ((byName_perm _).subset he)).2
      rw [data_eq_map] at value
      obtain ⟨p, hp, same⟩ := mem_map.1 value
      exact ih p hp (same ▸ rest)

end Plain

/-! ## Values that show data -/

theorem Entries.assign_of_not_mem {name : String} {v : Value} {es : Entries}
    (new : text name ∉ es.map (·.1)) : es.assign name v = es ++ [(.text name, v)] := by
  induction es with
  | nil => rfl
  | cons e es ih =>
    rw [map_cons, mem_cons, not_or] at new
    rw [Entries.assign, if_neg fun same => new.1 (sameScalar_text.1 same).symm, ih new.2]
    rfl

theorem Act.dictOfEntries_texts {names : List String} {vs : List Value}
    (lengths : names.length = vs.length) (distinct : names.Nodup) (s : Store) :
    Act.dictOfEntries ((names.map .text).zip vs) s =
      Act.newDict ((byName (names.zip vs)).map fun e => (.text e.1, e.2)) s := by
  have printed : ((names.map text).zip vs).map (fun e => ((s.view e.1).print, e)) =
      (names.zip vs).map fun e => (e.1, (text e.1, e.2)) := by
    rw [zip_map_left, map_map]
    rfl
  have hashable (es : List (String × Value)) :
      (es.map fun e => (e.1, (text e.1, e.2))).filter (fun e => e.2.1.unhashable?.isNone) =
        es.map fun e => (e.1, (text e.1, e.2)) := by
    refine filter_eq_self.2 fun e he => ?_
    obtain ⟨f, -, rfl⟩ := mem_map.1 he
    rfl
  -- no name comes twice, so that merging puts nothing in the place of another
  have merged (es : List (String × Value)) (distinct : (es.map (·.1)).Nodup) :
      Entries.merge [] (es.map fun e => (text e.1, e.2)) =
        es.map fun e => (text e.1, e.2) := by
    refine Plain.foldl_of_nodup (·.1) [] _ ?_ fun acc e he new => ?_
    · have keys : (es.map fun e => (text e.1, e.2)).map (·.1) =
          (es.map (·.1)).map text := by
        rw [map_map, map_map]
        rfl
      rw [nil_append, keys]
      exact distinct.map fun _ _ => text.inj
    · obtain ⟨f, -, rfl⟩ := mem_map.1 he
      simp only [Entries.put_text, Entries.assign_of_not_mem new]
  show Act.newDict (Entries.merge [] (((byName (((names.map text).zip vs).map
    fun e => ((s.view e.1).print, e))).filter fun e => e.2.1.unhashable?.isNone).map (·.2))) s = _
  rw [printed, byName_map (fun e => (text e.1, e.2)), hashable, map_map]
  refine congrArg (Act.newDict · s) (merged _ ?_)
  rw [((byName_perm _).map _).nodup_iff, Plain.names_zip lengths]
  exact distinct

def Place.Beyond (s : Store) : Place → Prop
  | .list r => s.lists.size ≤ r
  | .dict r => s.dicts.size ≤ r
  | .set _ => True

/-- How a value looks in a store and in all that come after it, also from within new containers. -/
def Store.Shows (s : Store) (v : Value) (d : Datum) : Prop :=
  ∃ n, ∀ t, s.Extends t → ∀ path : List Place, (∀ place ∈ path, place.Beyond s) →
    ∀ depth, n ≤ depth → t.viewWithin depth path v = d

namespace Store

variable {s s' t : Store} {v : Value} {d : Datum} {vs : List Value} {ds : List Datum}

theorem Agree.beyond {place : Place} (h : s.Extends s') (beyond : place.Beyond s') :
    place.Beyond s := by
  cases place with
  | list r => exact Nat.le_trans h.listsSize beyond
  | dict r => exact Nat.le_trans h.dictsSize beyond
  | set r => trivial

theorem Shows.mono (h : s.Extends s') (shows : s.Shows v d) : s'.Shows v d := by
  obtain ⟨n, shown⟩ := shows
  exact ⟨n, fun t ht path beyond =>
    shown t (h.trans ht) path fun place hp => h.beyond (beyond place hp)⟩

theorem shows_all (h : Forall₂ s.Shows vs ds) :
    ∃ n, ∀ t, s.Extends t → ∀ path : List Place, (∀ place ∈ path, place.Beyond s) →
      ∀ depth, n ≤ depth → vs.map (t.viewWithin depth path) = ds := by
  induction h with
  | nil => exact ⟨0, fun _ _ _ _ _ _ => rfl⟩
  | cons first rest ih =>
    obtain ⟨n, shown⟩ := first
    obtain ⟨m, others⟩ := ih
    refine ⟨max n m, fun t ht path beyond depth enough => ?_⟩
    rw [map_cons, shown t ht path beyond depth (by omega),
      others t ht path beyond depth (by omega)]

theorem Shows.view (h : s.Shows v d) : s.view v = d := by
  obtain ⟨n, shown⟩ := h
  rw [← s.viewWithin_eq_view n]
  exact shown s (.refl s) [] (fun _ hp => by cases hp) _ (by omega)

theorem shows_new (place : Place) (h : Forall₂ s.Shows vs ds) (grown : s.Extends s')
    (new : place.Beyond s) (made : ¬ place.Beyond s')
    (opened : ∀ (t : Store) path depth, place ∉ path →
      t.viewWithin (depth + 1) path v = t.written (t.viewWithin depth (place.under path)) place)
    (written : ∀ t, s'.Extends t → ∀ depth path, vs.map (t.viewWithin depth path) = ds →
      t.written (t.viewWithin depth path) place = d) : s'.Shows v d := by
  obtain ⟨n, shown⟩ := shows_all h
  refine ⟨n + 1, fun t ht path beyond depth enough => ?_⟩
  obtain ⟨depth, rfl⟩ : ∃ k, depth = k + 1 := ⟨depth - 1, by omega⟩
  rw [opened t path depth fun old => made (beyond place old)]
  refine written t ht _ _ (shown t (grown.trans ht) _ ?_ depth (by omega))
  have outside : ∀ other ∈ place :: path, other.Beyond s :=
    forall_mem_cons.2 ⟨new, fun place hp => grown.beyond (beyond place hp)⟩
  exact fun other above => outside other (under_subset above)

theorem shows_newList (h : Forall₂ s.Shows vs ds) :
    ({ s with lists := s.lists.push ⟨vs, 0⟩ } : Store).Shows (.list s.lists.size) (.list ds) := by
  have size : s.lists.size < (s.lists.push ⟨vs, 0⟩).size := by rw [Array.size_push]; omega
  refine shows_new (.list s.lists.size) h ((Agree.refl s).pushList _) (Nat.le_refl s.lists.size)
    (Nat.not_le.2 size) (fun t path depth outside => if_neg outside) fun t ht depth path same => ?_
  have items : t.list s.lists.size = vs := by
    rw [list, listCell, ht.lists _ size]
    exact list_pushList_self
  rw [written, items, same]

theorem shows_newDict {es : List (String × Value)} {fs : List (String × Datum)}
    (h : Forall₂ (fun e f => e.1 = f.1 ∧ s.Shows e.2 f.2) es fs) :
    ({ s with dicts := s.dicts.push (.ready (es.map fun e => (.text e.1, e.2))) } : Store).Shows
      (.dict s.dicts.size) (.dict (fs.map fun f => .text f.1) (fs.map (·.2))) := by
  have values : Forall₂ s.Shows (es.map (·.2)) (fs.map (·.2)) :=
    forall₂_map_left_iff.2 (forall₂_map_right_iff.2 (h.imp fun _ _ both => both.2))
  have size : s.dicts.size < (s.dicts.push (.ready (es.map fun e => (.text e.1, e.2)))).size := by
    rw [Array.size_push]
    omega
  refine shows_new (.dict s.dicts.size) values ((Agree.refl s).pushDict _) (Nat.le_refl s.dicts.size)
    (Nat.not_le.2 size) (fun t path depth outside => if_neg outside) fun t ht depth path same => ?_
  have entries : t.dict s.dicts.size = es.map fun e => (.text e.1, e.2) :=
    (ht.dict size fun touched => touched).trans dict_pushDict_self
  have keys : (t.dict s.dicts.size).keys.map (t.viewWithin depth path) = fs.map fun f => .text f.1 := by
    rw [entries, Entries.keys, map_map, map_map]
    refine map_eq_of_rel h fun e f both => ?_
    rw [← both.1]
    cases depth <;> rfl
  rw [written, keys, entries, ← same, Entries.values, map_map, map_map, map_map]
  rfl

theorem shows_scalar (looks : ∀ lists dicts sets, v.view lists dicts sets = d) : s.Shows v d := by
  refine ⟨0, fun t _ path _ depth _ => ?_⟩
  cases depth <;> exact looks _ _ _

end Store

namespace Plain

theorem toValues_texts (names : List String) (s : Store) :
    toValues (names.map .text) s = .ok (names.map .text) s := by
  induction names with
  | nil => rfl
  | cons n names ih =>
    rw [map_cons, toValues, Step.bind_of_ok (show toValue (.text n) s = _ from rfl),
      Step.bind_of_ok ih]
    rfl

theorem toValues_shows {ps : List Plain} (ih : ∀ p ∈ ps, ∀ s, ∃ v s', p.toValue s = .ok v s' ∧
    s.Extends s' ∧ s'.Shows v p.datum) (s : Store) :
    ∃ vs s', toValues ps s = .ok vs s' ∧ s.Extends s' ∧ Forall₂ s'.Shows vs (data ps) := by
  induction ps generalizing s with
  | nil => exact ⟨[], s, rfl, .refl s, .nil⟩
  | cons p ps rest =>
    obtain ⟨v, s₁, made, grown, shown⟩ := ih p (.head _) s
    obtain ⟨vs, s₂, made', grown', shown'⟩ := rest (fun p hp => ih p (.tail _ hp)) s₁
    refine ⟨v :: vs, s₂, ?_, grown.trans grown', .cons (shown.mono grown') shown'⟩
    rw [toValues, Step.bind_of_ok made, Step.bind_of_ok made']
    rfl

/-- **Data that is made a value looks like data.** -/
theorem toValue_shows {p : Plain} (hp : p.Simple) (s : Store) :
    ∃ v s', p.toValue s = .ok v s' ∧ s.Extends s' ∧ s'.Shows v p.datum := by
  induction hp generalizing s with
  | null => exact ⟨.null, s, rfl, .refl s, Store.shows_scalar fun _ _ _ => rfl⟩
  | bool b => exact ⟨.bool b, s, rfl, .refl s, Store.shows_scalar fun _ _ _ => rfl⟩
  | @int i => exact ⟨.int i, s, rfl, .refl s, Store.shows_scalar fun _ _ _ => rfl⟩
  | float f => exact ⟨.float f, s, rfl, .refl s, Store.shows_scalar fun _ _ _ => rfl⟩
  | text t => exact ⟨.text t, s, rfl, .refl s, Store.shows_scalar fun _ _ _ => rfl⟩
  | unset => exact ⟨_, _, rfl, (Store.Agree.refl s).pushList _, Store.shows_newList .nil⟩
  | @list items simple ih =>
    obtain ⟨vs, s', made, grown, shown⟩ := toValues_shows ih s
    refine ⟨_, _, ?_, grown.pushList _, Store.shows_newList shown⟩
    rw [toValue, Step.bind_of_ok made]
    rfl
  | @map keys values names texts lengths distinct simple ih =>
    obtain ⟨vs, s', made, grown, shown⟩ := toValues_shows ih s
    have same : names.length = vs.length := by
      rw [lengths, shown.length_eq, data_eq_map, length_map]
    rw [datum, texts, name_texts]
    refine ⟨_, _, ?_, grown.pushDict _, Store.shows_newDict (byName_rel shown names)⟩
    rw [toValue, Step.bind_of_ok (toValues_texts names s), Step.bind_of_ok made,
      Act.dictOfEntries_texts same distinct]
    rfl

/-- **Plain data comes back.** -/
theorem toValue_comes_back {p : Plain} (hp : p.Simple) (s : Store) :
    ∃ v s', p.toValue s = .ok v s' ∧ (∃ q, Act.toPlain v s' = .ok q s' ∧ Same p q) ∧
      (∀ keys values, Datum.Inside (.dict keys values) (s'.view v) →
        ∃ names : List String, keys = names.map .text ∧ names.Pairwise (· < ·)) ∧
      ∀ q : Plain, q.Simple → Same p q → ∀ t,
        ∃ w t', q.toValue t = .ok w t' ∧ t'.view w = s'.view v := by
  obtain ⟨v, s', made, -, shown⟩ := toValue_shows hp s
  refine ⟨v, s', made, ⟨_, ?_, same_toPlain hp⟩, fun keys values inside => ?_, fun q hq same t => ?_⟩
  · rw [Act.toPlain_eq, shown.view, if_neg (Bool.eq_false_iff.1 (not_endless hp))]
  · rw [shown.view] at inside
    exact names_ascending hp inside
  · obtain ⟨w, t', made', -, shown'⟩ := toValue_shows hq t
    exact ⟨w, t', made', by rw [shown.view, shown'.view, same.datum hp]⟩

/-- A map with a list that was never made. -/
theorem toValue_comes_back_map :
    ∃ v s' q, (Plain.map [.text "b", .text "a"] [.unset, .int 1]).toValue .empty = .ok v s' ∧
      Act.toPlain v s' = .ok q s' ∧ Same (.map [.text "b", .text "a"] [.unset, .int 1]) q := by
  have simple : ∀ p ∈ [Plain.unset, .int 1], p.Simple :=
    forall_mem_cons.2 ⟨.unset, forall_mem_singleton.2 (.int rfl)⟩
  have keys : [Plain.text "b", .text "a"] = ["b", "a"].map .text := rfl
  obtain ⟨v, s', made, ⟨q, back, same⟩, -⟩ :=
    toValue_comes_back (.map keys rfl (by decide) simple) .empty
  exact ⟨v, s', q, made, back, same⟩

end Plain
end Stencil
