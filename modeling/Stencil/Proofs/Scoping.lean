import Stencil.Proofs.Reach
import Stencil.Proofs.Restoring

/-!
# The scope of a loop

A loop saves the variables when it starts and, when it ends, restores those that are its own: its
targets and those it keeps its state in. All others keep the values they have got meanwhile, and
variables that are new are dropped.

Nothing of this would hold if the body got at what was saved. It can do so through the variable
`_parent`, by assigning it or by calling methods of the dict it stands for, or by having rounds
counted there. The last is possible only if the variables look like the account of a loop
(`Frame.scope_with_new_names` has an example).
-/

namespace Stencil

open List Entries
open Step (Follows Respects Gives Sim bind_ok pure_ok)

/-! ## The variables of some code -/

/-- Whether code assigns a variable or uses it as a target of a loop. -/
def Stmt.assigns (name : String) : Stmt → Bool
  | .skip | .text _ | .print _ _ | .block _ _ | .inclusion _ _ _ _ _ _ | .round _ _ => false
  | .seq first second => first.assigns name || second.assigns name
  | .assign other _ _ => other == name
  | .capture other body _ => other == name || body.assigns name
  | .branch _ yes no _ => yes.assigns name || no.assigns name
  | .loop key val _ _ body otherwise _ _ _ =>
    key == name || val == name || body.assigns name || otherwise.assigns name

/-- The variables that may change while code runs: those it assigns, those in which loops keep their
state, and what is set when rounds are counted. `_parent` is not among them. -/
def Stmt.Alters (code : Stmt) (name : String) : Prop :=
  code.assigns name = true ∨ name ∈ ["_seq", "_iterated", "loop"] ∨ name ∈ Loop.countedNames

namespace Entries

variable {name : String} {v : Value} {es : Entries}

theorem get?_of_mem_names (h : name ∈ es.names) : ∃ v, es.get? (.text name) = some v := by
  obtain ⟨v, hv⟩ := mem_names.1 h
  induction es with
  | nil => cases hv
  | cons e es ih =>
    rw [get?_cons (k := e.1) (v := e.2)]
    split
    · exact ⟨_, rfl⟩
    · next different =>
      rcases mem_cons.1 hv with rfl | hv
      · exact absurd (Value.sameScalar_text.2 rfl) different
      · exact ih (mem_names.2 ⟨v, hv⟩) hv

theorem textual_mapValues (f : Value × Value → Value) :
    textual (es.map fun e => (e.1, f e)) = es.textual := by
  have names_map : names (es.map fun e => (e.1, f e)) = es.names := filterMap_map
  rw [textual, textual, names_map, all_map]
  rfl

theorem textual_of_sublist {fs : Entries} (h : es.textual = true) (hsub : fs.Sublist es) :
    fs.textual = true := by
  obtain ⟨texts, once⟩ := textual_iff.1 h
  exact textual_iff.2 ⟨fun e he => texts e (hsub.subset he), once.sublist (hsub.filterMap _)⟩

end Entries

/-! ## Leaving a loop -/

namespace Loop

variable {name : String} {now parent : Entries}

theorem lastOf_kept_textual (s : Store) (hnow : now.textual = true)
    (hname : name ∈ parent.names) : lastOf name (kept s parent now) = now.get? (.text name) := by
  obtain ⟨texts, once⟩ := textual_iff.1 hnow
  obtain ⟨u, hu⟩ := get?_of_mem_names hname
  have text : ∀ e ∈ now, ∃ other, e.1 = .text other := fun e he =>
    (Option.isSome_iff_exists.1 (texts e he)).imp fun _ => Value.name?_eq_some.1
  have faithful : Value.Faithful (.text name :: now.keys) :=
    .of_names (forall_mem_cons.2 ⟨rfl, forall_mem_map.2 texts⟩)
  have inside : ∀ e ∈ now, e.1 ∈ Value.text name :: now.keys := fun e he =>
    mem_cons_of_mem _ (mem_map_of_mem he)
  have prints : now.Pairwise fun e f => e.1.printedKey ≠ f.1.printedKey := by
    refine List.Pairwise.imp_of_mem (fun {e f} he hf other => ?_) (pairwise_filterMap.1 once)
    obtain ⟨a, ha⟩ := text e he
    obtain ⟨b, hb⟩ := text f hf
    rw [ha, hb] at other ⊢
    exact other a rfl b rfl
  rw [lastOf_kept_eq s (fun e he => faithful.hashable _ (inside e he)) prints]
  · exact (get?_eq_printed faithful mem_cons_self inside).symm
  · intro e he alike
    obtain ⟨other, is⟩ := text e he
    obtain rfl : other = name := by rw [is] at alike; exact alike
    rw [is, hu]
    rfl

/-- The variables that come back when a loop is left: its own as they were saved, the others with the
values they have. -/
theorem get?_back (s s' : Store) {targets : List String} (hnow : now.textual = true) :
    (restored s (kept s' parent
      ((ownNames targets).foldl (fun es name => erase (.text name) es) now)) parent).get?
        (.text name) =
      (parent.get? (.text name)).map fun v =>
        if name ∈ ownNames targets then v else (now.get? (.text name)).getD v := by
  have once := (textual_iff.1 hnow).2
  have left := textual_of_sublist hnow (removed (ownNames targets) once).1
  rw [get?_restored]
  rcases Decidable.em (name ∈ parent.names) with there | missing
  · rw [lastOf_kept_textual s' left there, get?_removed _ once, isAmong_text]
    simp only [contains_iff_mem]
    split <;> rfl
  · rw [get?_eq_none_of_not_mem missing]
    rfl

end Loop

/-! ## While a loop runs -/

namespace Store

variable {A : String → Prop} {c : Nat} {s s' : Store}

/-- What code with its variables in `c` does that alters only variables in `A`, as long as the
variables are there and all have names. -/
def AltersOnly (A : String → Prop) (c : Nat) (s s' : Store) : Prop :=
  c < s.dicts.size → (s.dict c).textual = true →
    s.Spares (· = c) s' ∧ (s.dict c).Changed A (s'.dict c)

instance : IsPreorder Store (AltersOnly A c) where
  refl s _ _ := ⟨refl_of (Spares (· = c)) s, .refl _⟩
  trans _ _ _ h h' hc ht := by
    obtain ⟨spares, changed⟩ := h hc ht
    obtain ⟨spares', changed'⟩ :=
      h' (Nat.lt_of_lt_of_le hc spares.agree.dictsSize) (changed.textual ht)
    exact ⟨spares.trans spares', changed.trans changed'⟩

/-- What reaches no container may still count rounds in the variables. -/
theorem Spares.altersOnly (hA : ∀ name ∈ Loop.countedNames, A name) (h : s.SparesAll s') :
    AltersOnly A c s s' :=
  fun hc _ => ⟨.of_all h, (h.counted c hc id).mono hA⟩

end Store

namespace Loop

variable {A : String → Prop} {c p : Nat} {s₀ s s' : Store}

/-- What holds in a loop over the variables in `c` that has started in the store `s₀` and has saved
what was there in the dict `p`: the variables in `A` may have changed, and no other. What was saved
is as it was, unless rounds can be counted in it. -/
structure Saved (A : String → Prop) (c p : Nat) (s₀ s : Store) : Prop where
  spares : s₀.Spares (· = c) s
  there : c < s₀.dicts.size
  textual : (s₀.dict c).textual = true
  new : s₀.dicts.size ≤ p
  held : p < s.dicts.size
  parent : (s.dict c).get? (.text "_parent") = some (.dict p)
  vars : (s₀.dict c).Changed (fun name => A name ∨ name = "_parent") (s.dict c)
  counted : (s₀.dict c).Changed (· ∈ countedNames) (s.dict p)
  same : ¬ (s₀.dict c).isAccount = true → s.dict p = s₀.dict c

namespace Saved

theorem apart (h : Saved A c p s₀ s) : p ≠ c := by
  have := h.there
  have := h.new
  omega

theorem of_save (hc : c < s.dicts.size) (ht : (s.dict c).textual = true)
    (ok : save c s = .ok () s') : Saved A c s.dicts.size s s' := by
  have agree := save_agree ok
  obtain ⟨es, _, got, ok⟩ := bind_ok.1 ok
  cases got
  obtain ⟨v, s₁, made, ok⟩ := bind_ok.1 ok
  cases made
  obtain rfl := put_ok.1 ok
  let t : Table := .filled (s.dict c)
  have grown : s.Extends { s with dicts := s.dicts.push t } := (Store.Agree.refl s).pushDict t
  have vars := @Store.dict_assign_self _ c "_parent" (.dict s.dicts.size)
    (Nat.lt_of_lt_of_le hc grown.dictsSize)
  rw [grown.dict hc id] at vars
  have saved : (({ s with dicts := s.dicts.push t } : Store).assign c "_parent"
      (.dict s.dicts.size)).dict s.dicts.size = s.dict c :=
    (Store.dict_assign_of_ne (Nat.ne_of_gt hc)).trans Store.dict_pushDict_self
  refine ⟨agree.spares, hc, ht, Nat.le_refl _, ?_, ?_, ?_, ?_, fun _ => saved⟩
  · rw [Store.size_assign, Array.size_push]
    exact Nat.lt_succ_self _
  · rw [vars, get?_assign_self]
  · rw [vars]
    exact .assign (Or.inr rfl)
  · rw [saved]
    exact .refl _

/-- What was saved is out of reach of code that does not set `_parent`. -/
theorem step (h : Saved A c p s₀ s) (hA : ¬ A "_parent") (hs : s.AltersOnly A c s') :
    Saved A c p s₀ s' := by
  obtain ⟨spares, changed⟩ := hs (Nat.lt_of_lt_of_le h.there h.spares.agree.dictsSize)
    (h.vars.textual h.textual)
  refine ⟨h.spares.trans spares, h.there, h.textual, h.new,
    Nat.lt_of_lt_of_le h.held spares.agree.dictsSize, ?_, ?_, ?_, fun hcount => ?_⟩
  · rw [changed.same _ hA, h.parent]
  · exact h.vars.trans (changed.mono fun _ => Or.inl)
  · exact h.counted.trans (spares.counted p h.held h.apart)
  · have same := h.same hcount
    rw [spares.dict h.held h.apart (same.symm ▸ hcount), same]

theorem mark (h : Saved A c p s₀ s) {q : Nat} (hq : s₀.lists.size ≤ q) (change : Nat → Nat) :
    Saved A c p s₀ (s.mark q change) :=
  { h with spares := h.spares.mark hq change }

variable {scope : Scope} {targets : List String}

/-- The variables when a loop is left: they are those that were saved; its own have the values they
had, and the others those they have now. -/
theorem leave (h : Saved A c p s₀ s) (ok : scope.leaveScope c targets s = .ok () s') :
    (s'.dict c).map (·.1) = (s.dict p).map (·.1) ∧
      ((s.dict p).textual = true → (s'.dict c).textual = true) ∧ ∀ name, (s'.dict c).get?
      (.text name) = ((s.dict p).get? (.text name)).map fun v => if name ∈ ownNames targets then v
      else ((s.dict c).get? (.text name)).getD v := by
  obtain ⟨s₁, s₂, _, ran, -, after⟩ := scope.leaveScope_eq targets h.parent
  cases ran.symm.trans ok
  have hc := Nat.lt_of_lt_of_le h.there h.spares.agree.dictsSize
  rw [after h.apart hc]
  refine ⟨map_map, fun textual => (textual_mapValues _).trans textual, fun name => ?_⟩
  exact get?_back s₂ s₁ (h.vars.textual h.textual)

/-- Seen from outside, a loop alters only variables in `A`. -/
theorem altersOnly (h : Saved A c p s₀ s) (hcounted : ∀ name ∈ countedNames, A name)
    (ok : scope.leaveScope c targets s = .ok () s') : s₀.AltersOnly A c s' := by
  obtain ⟨keys, textual, back⟩ := h.leave ok
  refine fun _ _ => ⟨h.spares.trans (Scope.leaveScope_agree ok).spares, fun name hname => ?_,
    fun name hname => ?_, fun ht => textual (h.counted.textual ht)⟩
  · have before : (s.dict p).get? (.text name) = (s₀.dict c).get? (.text name) :=
      h.counted.same name fun counted => hname (hcounted name counted)
    rw [back name, before]
    split
    · exact Option.map_id_apply
    · next other =>
      rw [h.vars.same name ?_]
      · cases (s₀.dict c).get? (.text name) <;> rfl
      · rintro (altered | rfl)
        · exact hname altered
        · exact other (mem_append_left _ (by decide))
  · have names : (s'.dict c).names = (s.dict p).names := by
      have := congrArg (List.filterMap Value.name?) keys
      rwa [filterMap_map, filterMap_map] at this
    rw [names]
    exact h.counted.names name hname

/-- The variables after a loop, when no round can be counted in what was saved: they are those that
were there before; the loop's own have the values they had, the others those they have now. -/
theorem back (h : Saved A c p s₀ s) (uncounted : (s₀.dict c).isAccount = false)
    (ok : scope.leaveScope c targets s = .ok () s') :
    (s'.dict c).map (·.1) = (s₀.dict c).map (·.1) ∧
      (∀ name ∈ ownNames targets, (s'.dict c).get? (.text name) = (s₀.dict c).get? (.text name)) ∧
      (∀ name ∈ (s₀.dict c).names, name ∉ ownNames targets → ∃ v, (s.dict c).get? (.text name) =
        some v ∧ (s'.dict c).get? (.text name) = some v) ∧ ∀ name, ¬ A name → name ∉ ownNames
      targets → (s'.dict c).get? (.text name) = (s₀.dict c).get? (.text name) := by
  obtain ⟨keys, -, back⟩ := h.leave ok
  rw [h.same (Bool.eq_false_iff.1 uncounted)] at keys back
  refine ⟨keys, fun name own => ?_, fun name old other => ?_, fun name unaltered other => ?_⟩
  · simp only [back name, if_pos own, Option.map_id']
  · obtain ⟨v, hv⟩ := get?_of_mem_names (h.vars.names name old)
    obtain ⟨u, hu⟩ := get?_of_mem_names old
    refine ⟨v, hv, ?_⟩
    simp only [back name, if_neg other, hu, hv, Option.map_some, Option.getD_some]
  · have now : (s.dict c).get? (.text name) = (s₀.dict c).get? (.text name) := by
      refine h.vars.same name ?_
      rintro (altered | rfl)
      · exact unaltered altered
      · exact other (mem_append_left _ (by decide))
    simp only [back name, if_neg other, now]
    cases (s₀.dict c).get? (.text name) <;> rfl

end Saved

theorem changed_opening {flags : LoopFlags} {list dict : Nat} {es : Entries}
    (hseq : A "_seq") (hiterated : A "_iterated") (hloop : A "loop") :
    es.Changed A (opening flags list dict es) := by
  have seq : es.Changed A (es.assign "_seq" (.list list)) := .assign hseq
  unfold opening
  dsimp only
  split <;> split
  · exact (seq.trans (.assign hiterated)).trans (.assign hloop)
  · exact seq.trans (.assign hloop)
  · exact seq.trans (.assign hiterated)
  · exact seq

end Loop

namespace Frame

variable {calls : Calls} {frame : Frame}

section Alters

variable {A : String → Prop}

theorem put_alters {c : Nat} {name : String} (hname : A name) (v : Value) :
    Respects (Store.AltersOnly A c) (Loop.put c name v) := by
  refine Follows.of_state fun s _ s' ok hc _ => ⟨(Loop.put_spares name v).state ok, ?_⟩
  obtain rfl := Loop.put_ok.1 ok
  rw [Store.dict_assign_self hc]
  exact .assign hname

variable (henv : frame.env.Steady) (hcalls : calls.Sparing)
  (hcounted : ∀ name ∈ Loop.countedNames, A name) (hparent : ¬ A "_parent")
  (hstate : ∀ name ∈ ["_seq", "_iterated", "loop"], A name)

include henv hcalls hcounted hstate hparent

theorem untilLeft_saved {key val : String} {sequence : Expr} {flags : LoopFlags}
    {body otherwise : Stmt} {mark elseMark : Int} (hkey : A key) (hval : A val)
    (hbody : Respects (World.On (Store.AltersOnly A frame.context)) (run calls frame body))
    (hotherwise : Respects (World.On (Store.AltersOnly A frame.context))
      (run calls frame otherwise)) {w w' : World} {out : String}
    (hc : frame.context < w.store.dicts.size) (ht : (w.store.dict frame.context).textual = true)
    (ok : frame.untilLeft calls key val sequence flags body otherwise mark elseMark w = .ok out w') :
    Loop.Saved A frame.context w.store.dicts.size w.store w'.store := by
  refine untilLeft_yields (I := Loop.Saved A frame.context w.store.dicts.size w.store)
    (value_spares henv hcalls sequence) (put_alters hkey) (put_alters hval) hbody hotherwise
    (.of_save hc ht) (fun h spared => h.step hparent (Store.Spares.altersOnly hcounted spared))
    (fun h entered => ?_) (fun change h new => h.mark new change)
    (fun h altered => h.step hparent altered) ok
  obtain ⟨_, opened⟩ := Loop.entered_of_enter
    (Nat.lt_of_lt_of_le hc h.spares.agree.dictsSize) entered
  refine ⟨h.step hparent fun _ _ => ⟨opened.agree.spares, ?_⟩, h.spares.agree.listsSize, opened.seq⟩
  rw [opened.vars]
  exact Loop.changed_opening (hstate _ (by decide)) (hstate _ (by decide)) (hstate _ (by decide))

/-- **Code alters only the variables it assigns**, as long as `_parent` is not one of them. -/
theorem run_alters (code : Stmt) (hcode : ∀ name, code.assigns name = true → A name) :
    Respects (World.On (Store.AltersOnly A frame.context)) (run calls frame code) := by
  have all : frame.Bounded calls (Store.AltersOnly A frame.context) :=
    (bounded_spares henv hcalls).mono (Store.Spares.altersOnly hcounted)
  refine run_follows (fun _ => Store.AltersOnly A frame.context)
    (fun _ code => ∀ name, code.assigns name = true → A name) (fun _ => all) (fun h => ?_)
    (fun h => put_alters (h _ (beq_self_eq_true _))) (fun h => ?_) (fun h => ?_)
    (fun assigned body otherwise => ?_) (fun _ => ?_) false hcode
  · exact ⟨fun name here => h name (Bool.or_eq_true_iff.2 (Or.inl here)),
      fun name here => h name (Bool.or_eq_true_iff.2 (Or.inr here))⟩
  · exact ⟨fun name here => h name (Bool.or_eq_true_iff.2 (Or.inr here)),
      put_alters (h _ (Bool.or_eq_true_iff.2 (Or.inl (beq_self_eq_true _))))⟩
  · exact ⟨fun name here => h name (Bool.or_eq_true_iff.2 (Or.inl here)),
      fun name here => h name (Bool.or_eq_true_iff.2 (Or.inr here))⟩
  · simp only [Stmt.assigns, Bool.or_eq_true, beq_iff_eq] at assigned
    refine Follows.of_state fun w out w' ok hc ht => ?_
    obtain ⟨w₄, s, until_, left, rfl⟩ := run_loop_leave.1 ok
    have saved := untilLeft_saved henv hcalls hcounted hparent hstate
      (assigned _ (by simp)) (assigned _ (by simp))
      (body false fun name h => assigned name (by simp [h]))
      (otherwise false fun name h => assigned name (by simp [h])) hc ht until_
    exact saved.altersOnly hcounted left hc ht
  · exact Loop.endRound_follows (put_alters (hstate "_iterated" (by decide)) _)
      ((Loop.count_spares _).mono fun _ _ => Store.Spares.altersOnly hcounted)

end Alters

/-! ## The variables after a loop -/

section Scope

variable {depth : Nat} (hcallables : ∀ c, frame.env.registry.Offers c → c.Steady)

include hcallables

theorem untilLeft_barred (key val : String) (sequence : Expr) (flags : LoopFlags)
    (body otherwise : Stmt) (mark elseMark : Int) :
    Sim Eq (fun _ => False)
      (frame.barred.untilLeft (Render.callsAt frame.env.barred frame.root depth) key val sequence
        flags body otherwise mark elseMark)
      (frame.untilLeft (Render.callsAt frame.env frame.root depth) key val sequence flags body
        otherwise mark elseMark) := by
  have henv := Render.parallel_barred hcallables
  have located := fun {α : Type} {x y : Eval α} (mark : Int) (h : Sim Eq (fun _ => False) x y) =>
    henv.matching.located frame.barred frame mark h
  refine (located mark ((henv.act _).bind fun _ => (value_barred hcallables sequence).bind fun _ =>
    henv.act _)).bind fun _ =>
    (located mark (sim_of_rel_eq ((henv.keeps frame.root frame.root).looping rfl key val
      ((run_barred hcallables body).related fun _ => rfl)))).bind fun _ =>
    (located elseMark (hadNone_sim frame.barred henv flags)).bind fun none =>
    Sim.bind ?_ fun _ => .pure _
  cases none with
  | true => exact run_barred hcallables otherwise
  | false => exact .pure _

/-- **The scope of a loop.**  Where no method of a container is called, a loop whose code does not
assign `_parent` leaves the variables that were there, in their order. Those that are its own have
the values they had before; the others have the values they had just before the scope was left, which
are the old ones unless the loop alters them. The variables must not look like the account of a
loop. -/
theorem loop_scope {key val : String} {sequence : Expr} {flags : LoopFlags} {body otherwise : Stmt}
    {mark elseMark endMark : Int} (hkey : key ≠ "_parent") (hval : val ≠ "_parent")
    (hbody : body.assigns "_parent" = false) (hotherwise : otherwise.assigns "_parent" = false)
    {w w' : World} {out : String} (there : frame.context < w.store.dicts.size)
    (textual : (w.store.dict frame.context).textual = true)
    (uncounted : (w.store.dict frame.context).isAccount = false)
    (ok : frame.barred.run (Render.callsAt frame.env.barred frame.root depth)
      (.loop key val sequence flags body otherwise mark elseMark endMark) w = .ok out w') :
    frame.run (Render.callsAt frame.env frame.root depth)
      (.loop key val sequence flags body otherwise mark elseMark endMark) w = .ok out w' ∧
    ∃ w₄, frame.untilLeft (Render.callsAt frame.env frame.root depth) key val sequence flags body
        otherwise mark elseMark w = .ok out w₄ ∧
      (w'.store.dict frame.context).map (·.1) = (w.store.dict frame.context).map (·.1) ∧
      (∀ name ∈ Loop.ownNames [key, val],
        (w'.store.dict frame.context).get? (.text name) =
          (w.store.dict frame.context).get? (.text name)) ∧
      (∀ name ∈ (w.store.dict frame.context).names, name ∉ Loop.ownNames [key, val] →
        ∃ v, (w₄.store.dict frame.context).get? (.text name) = some v ∧
          (w'.store.dict frame.context).get? (.text name) = some v) ∧
      ∀ name, ¬ (Stmt.seq body otherwise).Alters name → name ∉ Loop.ownNames [key, val] →
        (w'.store.dict frame.context).get? (.text name) =
          (w.store.dict frame.context).get? (.text name) := by
  have steady : frame.barred.env.Steady := frame.env.barred_steady hcallables
  have sparing := Render.callsAt_sparing steady frame.root depth
  obtain ⟨w₄, s, until_, left, rfl⟩ := run_loop_leave.1 ok
  let A : String → Prop := fun name =>
    (Stmt.seq body otherwise).Alters name ∨ name = key ∨ name = val
  have hA : ¬ A "_parent" := by
    rintro ((assigned | state | counted) | rfl | rfl)
    · rw [Stmt.assigns, hbody, hotherwise] at assigned
      cases assigned
    · exact absurd state (by decide)
    · exact absurd counted (by decide)
    · exact hkey rfl
    · exact hval rfl
  have hcounted : ∀ name ∈ Loop.countedNames, A name := fun _ h => Or.inl (Or.inr (Or.inr h))
  have hstate : ∀ name ∈ ["_seq", "_iterated", "loop"], A name :=
    fun _ h => Or.inl (Or.inr (Or.inl h))
  have run := fun code hcode => run_alters steady sparing hcounted hA hstate code hcode
  have saved := untilLeft_saved steady sparing hcounted hA hstate (Or.inr (Or.inl rfl))
    (Or.inr (Or.inr rfl))
    (run body fun name h => Or.inl (Or.inl (Bool.or_eq_true_iff.2 (Or.inl h))))
    (run otherwise fun name h => Or.inl (Or.inl (Bool.or_eq_true_iff.2 (Or.inr h))))
    there textual until_
  obtain ⟨keys, own, others, unaltered⟩ := saved.back uncounted left
  refine ⟨(run_barred hcallables _).same ok, w₄,
    (untilLeft_barred hcallables _ _ _ _ _ _ _ _).same until_, keys, own, others,
    fun name hname other => unaltered name ?_ other⟩
  rintro (altered | rfl | rfl)
  · exact hname altered
  · exact other (mem_append_right _ (by simp))
  · exact other (mem_append_right _ (by simp))

end Scope

def codeOf (n : Node) : Stmt := (((Program.partOf n).stmt 1).getD (.skip, 1)).1

def page : Frame :=
  (Environment.ofCore {} (fun _ => .ok "") ⟨#[]⟩).frame "" ⟨"page", "", .skip, none, 1, 1, []⟩ 0 []

def pageWorld (es : Entries) : World :=
  { World.start with store := ⟨#[], #[.ready es], #[], 0, 0⟩ }

theorem page_steady : ∀ c, page.env.registry.Offers c → c.Steady := by
  refine Registry.forall_offers fun e he => ?_
  rw [mem_singleton.1 he]
  exact Language.core_steady

/-- A body that adds up in one variable, sets another, and has a loop whose target is the first. -/
def sumBody : Stmt :=
  codeOf (.ofBody [
    .node .assign 1 "" [("capture", .bool false)] [.ofBody [.ofTarget "total" 1] 1,
      .ofBody [.plain .add 1 [.ofName "total" 1, .ofName "x" 1]] 1],
    .node .assign 1 "" [("capture", .bool false)] [.ofBody [.ofTarget "extra" 1] 1,
      .ofBody [.ofName "x" 1] 1],
    Parse.loopNode 1 (.ofTarget "_key" 1) (.ofTarget "total" 1) (.plain .array 1 [.ofName "x" 1])
      .absent (.ofPrint (.ofName "total" 1) 1) .absent] 1)

theorem loop_scope_sum :
    sumBody.assigns "_parent" = false ∧
    ∃ w', page.barred.run (Render.callsAt page.env.barred page.root 0)
        (.loop "_key" "x" (.array [.constant (.int 5), .constant (.int 6)]) ⟨false, false, false⟩
          sumBody .skip 1 1 1) (pageWorld [(.text "x", .int 1), (.text "total", .int 0)]) =
        .ok "56" w' ∧
      (w'.store.dict 0).map (·.1) = [.text "x", .text "total"] ∧
      (w'.store.dict 0).get? (.text "x") = some (.int 1) ∧
      ∃ v, (w'.store.dict 0).get? (.text "total") = some v := by
  have body : sumBody.assigns "_parent" = false := by decide
  obtain ⟨w', ok⟩ : Gives (page.barred.run (Render.callsAt page.env.barred page.root 0)
      (.loop "_key" "x" (.array [.constant (.int 5), .constant (.int 6)]) ⟨false, false, false⟩
        sumBody .skip 1 1 1)) (pageWorld [(.text "x", .int 1), (.text "total", .int 0)]) "56" := by
    decide +kernel
  obtain ⟨-, w₄, -, keys, own, others, -⟩ := loop_scope page_steady (by decide)
    (by decide) body rfl (by decide) (by decide) (by decide) ok
  obtain ⟨v, -, total⟩ := others "total" (by decide) (by decide)
  exact ⟨body, w', ok, keys, own "x" (by decide), v, total⟩

def namesAfter (code : Stmt) : Eval (List String) := do
  let _ ← page.run (Render.callsAt page.env page.root 0) code
  return (← Eval.ofAct (Act.dictEntries 0)).names

def loopOver (sequence condition body : Node) : Stmt :=
  codeOf (Parse.loopNode 1 (.ofTarget "_key" 1) (.ofTarget "x" 1) sequence condition body .absent)

def addition : Node :=
  .ofAccess (.ofName "_parent" 1) (.ofString "update" 1)
    (.plain .arguments 1 [.plain .hash 1 [.ofString "z" 1, .ofConstant (.int 5) 1]]) .method 1

/-- A loop can bring in new variables although its body neither assigns `_parent` nor calls a method:
through its sequence, through its condition, or when its rounds are counted in what was saved. -/
theorem scope_with_new_names :
    Gives (namesAfter (loopOver (.plain .array 1 [addition]) .absent (.ofBody [] 1))) (pageWorld [])
      ["z"] ∧
    Gives (namesAfter (loopOver (.plain .array 1 [.ofConstant (.int 1) 1])
      (.plain .negation 1 [addition]) (.ofBody [] 1))) (pageWorld []) ["z"] ∧
    Gives (namesAfter (loopOver (.plain .array 1 [.ofConstant (.int 1) 1])
      (.ofConstant (.bool true) 1) (.ofBody [
        .node .assign 1 "" [("capture", .bool false)] [.ofBody [.ofTarget "loop" 1] 1,
          .ofBody [.ofName "_parent" 1] 1],
        .ofPrint (.ofName "loop" 1) 1] 1)))
      (pageWorld [(.text "index0", .int 0), (.text "index", .int 1)]) ["index0", "index", "first"] := by
  decide +kernel

end Frame
end Stencil
