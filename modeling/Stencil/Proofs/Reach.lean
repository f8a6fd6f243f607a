import Stencil.Proofs.Loops

/-!
# How far code reaches

Code that calls no method of a container still changes containers in two ways: it sets its own
variables, and it counts the rounds of its loops. Counting goes through the variable `loop`, and any
code may set that variable to any dict. But it fails unless there are numbers under `index0` and
`index` in that dict, so a dict that does not look like the account of a loop is out of reach.
-/

namespace Stencil

open Step (Follows Respects Sim bind_ok pure_ok)
open Store (Extends)

/-! ## Accounts -/

def Value.isNumber : Value → Bool
  | .int _ | .float _ => true
  | _ => false

/-- Whether entries look like the account of a loop: there are numbers under `index0` and `index`. -/
def Entries.isAccount (es : Entries) : Bool :=
  (es.get? (.text "index0")).any Value.isNumber && (es.get? (.text "index")).any Value.isNumber

def Loop.countedNames : List String := ["index0", "index", "first", "revindex0", "revindex", "last"]

/-! ## Entries in which some names are set -/

namespace Entries

/-- Whether all keys are names, each of them there once. -/
def textual (es : Entries) : Bool :=
  es.all (fun e => e.1.name?.isSome) && decide es.names.Nodup

structure Changed (A : String → Prop) (es es' : Entries) : Prop where
  same : ∀ name, ¬ A name → es'.get? (.text name) = es.get? (.text name)
  names : ∀ name ∈ es.names, name ∈ es'.names
  textual : es.textual = true → es'.textual = true

variable {A : String → Prop} {name : String} {v : Value} {es es' es'' : Entries}

theorem textual_iff :
    es.textual = true ↔ (∀ e ∈ es, e.1.name?.isSome = true) ∧ es.names.Nodup := by
  rw [textual, Bool.and_eq_true_iff, List.all_eq_true, decide_eq_true_iff]

theorem proper_of_textual (h : es.textual = true) : es.proper = true := by
  obtain ⟨texts, once⟩ := textual_iff.1 h
  refine proper_iff.2 ⟨fun e he => ?_, once⟩
  rw [Value.honest, texts e he]
  rfl

theorem textual_assign (h : es.textual = true) : (es.assign name v).textual = true := by
  obtain ⟨texts, -⟩ := textual_iff.1 h
  refine textual_iff.2 ⟨fun e he => ?_, (proper_iff.1 (proper_assign (proper_of_textual h))).2⟩
  rcases mem_assign he with is | old
  · rw [is]
    rfl
  · exact texts e old

theorem mem_names_assign {other : String} (h : other ∈ es.names) :
    other ∈ (es.assign name v).names := by
  rcases names_assign name v es with same | ⟨-, more⟩
  · rwa [same]
  · rw [more]
    exact List.mem_append_left _ h

theorem Changed.refl (es : Entries) : Changed A es es := ⟨fun _ _ => rfl, fun _ => id, id⟩

theorem Changed.trans (h : Changed A es es') (h' : Changed A es' es'') : Changed A es es'' where
  same name hname := (h'.same name hname).trans (h.same name hname)
  names name hname := h'.names name (h.names name hname)
  textual := h'.textual ∘ h.textual

theorem Changed.mono {B : String → Prop} (hB : ∀ name, A name → B name) (h : Changed A es es') :
    Changed B es es' :=
  { h with same := fun name hname => h.same name fun ha => hname (hB name ha) }

theorem Changed.assign (hname : A name) : Changed A es (es.assign name v) where
  same _ hother := get?_assign_of_ne fun is => hother (is ▸ hname)
  names _ := mem_names_assign
  textual := textual_assign

end Entries

/-! ## Containers that are out of reach -/

/-- Containers are as they were, except for the dicts in `touched`, and for what counting rounds does
to dicts that look like accounts. -/
structure Store.Spares (touched : Nat → Prop) (s s' : Store) : Prop where
  agree : s.Agree (fun r => touched r ∨ (s.dict r).isAccount = true) s'
  counted : ∀ r < s.dicts.size, ¬ touched r →
    (s.dict r).Changed (· ∈ Loop.countedNames) (s'.dict r)

/-- All containers are as they were, except for what counting rounds does. -/
abbrev Store.SparesAll : Store → Store → Prop := Store.Spares fun _ => False

namespace Store

variable {touched : Nat → Prop} {s s' s'' : Store} {c r : Nat}

theorem Agree.spares (h : s.Agree touched s') : s.Spares touched s' where
  agree := h.mono fun _ _ => Or.inl
  counted r hr ht := by
    rw [h.dict hr ht]
    exact .refl _

namespace Spares

theorem dict (h : s.Spares touched s') (hr : r < s.dicts.size) (ht : ¬ touched r)
    (hcount : ¬ (s.dict r).isAccount = true) : s'.dict r = s.dict r :=
  h.agree.dict hr (not_or.2 ⟨ht, hcount⟩)

/-- What does not look like an account stays as it is, so it never comes to look like one. -/
theorem trans (h : s.Spares touched s') (h' : s'.Spares touched s'') : s.Spares touched s'' where
  agree := by
    have later : ∀ r < s.dicts.size, ¬ (touched r ∨ (s.dict r).isAccount = true) →
        ¬ (touched r ∨ (s'.dict r).isAccount = true) := by
      intro r hr ht
      rwa [h.agree.dict hr ht]
    exact
      { lists := fun r hr =>
          (h'.agree.lists r (Nat.lt_of_lt_of_le hr h.agree.listsSize)).trans (h.agree.lists r hr)
        dicts := fun r hr ht =>
          (h'.agree.dicts r (Nat.lt_of_lt_of_le hr h.agree.dictsSize) (later r hr ht)).trans
            (h.agree.dicts r hr ht)
        sets := fun r hr =>
          (h'.agree.sets r (Nat.lt_of_lt_of_le hr h.agree.setsSize)).trans (h.agree.sets r hr)
        listsSize := Nat.le_trans h.agree.listsSize h'.agree.listsSize
        dictsSize := Nat.le_trans h.agree.dictsSize h'.agree.dictsSize
        setsSize := Nat.le_trans h.agree.setsSize h'.agree.setsSize }
  counted r hr ht :=
    (h.counted r hr ht).trans (h'.counted r (Nat.lt_of_lt_of_le hr h.agree.dictsSize) ht)

instance : IsPreorder Store (Spares touched) where
  refl s := (Agree.refl s).spares
  trans _ _ _ := trans

theorem mono {more : Nat → Prop} (hmore : ∀ r < s.dicts.size, touched r → more r)
    (h : s.Spares touched s') : s.Spares more s' where
  agree := h.agree.mono fun r hr => Or.imp_left (hmore r hr)
  counted r hr ht := h.counted r hr fun old => ht (hmore r hr old)

theorem of_all (h : s.SparesAll s') : s.Spares touched s' := h.mono fun _ _ => False.elim

theorem mark (h : s.Spares touched s') {q : Nat} (hq : s.lists.size ≤ q) (change : Nat → Nat) :
    s.Spares touched (s'.mark q change) :=
  ⟨h.agree.setList hq _, h.counted⟩

theorem all {t : Table}
    (h : ({ s with dicts := s.dicts.push t } : Store).Spares (· = s.dicts.size) s') :
    s.SparesAll s' := by
  have grown : s.Spares (· = s.dicts.size) { s with dicts := s.dicts.push t } :=
    ((Agree.refl s).pushDict t).spares
  exact (grown.trans h).mono fun r hr new => absurd new (Nat.ne_of_lt hr)

end Spares
end Store

/-! ## Counting rounds -/

namespace Loop

variable {c l : Nat} {s₀ s s' : Store}

structure Counts (c l : Nat) (s₀ s : Store) : Prop where
  loop : (s.dict c).get? (.text "loop") = some (.dict l)
  there : l < s.dicts.size
  agree : s₀.Agree (· = l) s
  changed : (s₀.dict l).Changed (· ∈ countedNames) (s.dict l)

theorem Counts.putItem (h : Counts c l s₀ s) {key : String} (hkey : key ∈ countedNames) {x : Value}
    (ok : putItem (.dict l) key x s = .ok () s') :
    Counts c l s₀ s' ∧ s'.dict l = (s.dict l).assign key x := by
  obtain rfl := put_ok.1 ok
  have self : (s.assign l key x).dict l = (s.dict l).assign key x := Store.dict_assign_self h.there
  refine ⟨⟨?_, Store.size_assign.symm ▸ h.there, h.agree.assign fun _ => rfl, ?_⟩, self⟩
  · rcases Decidable.em (c = l) with rfl | other
    · rw [self, Entries.get?_assign_of_ne ?_, h.loop]
      rintro rfl
      exact absurd hkey (by decide)
    · rw [Store.dict_assign_of_ne other, h.loop]
  · rw [self]
    exact h.changed.trans (.assign hkey)

theorem isNumber_of_stepped {v x : Value} {up : Bool} (h : stepped v up s = .ok x s') :
    v.isNumber = true := by
  cases v with
  | int | float => rfl
  | _ => cases h

theorem Counts.bump (h : Counts c l s₀ s) {key : String} (hkey : key ∈ countedNames) {up : Bool}
    (ok : bump c key up s = .ok () s') :
    Counts c l s₀ s' ∧ ((s.dict l).get? (.text key)).any Value.isNumber = true ∧
      ∀ name ≠ key, (s'.dict l).get? (.text name) = (s.dict l).get? (.text name) := by
  obtain ⟨loop, _, needed, ok⟩ := bind_ok.1 ok
  obtain ⟨hloop, rfl⟩ := need_ok.1 needed
  cases h.loop.symm.trans hloop
  obtain ⟨x, _, got, ok⟩ := bind_ok.1 ok
  obtain ⟨hx, rfl⟩ := need_ok.1 got
  obtain ⟨y, _, counted, ok⟩ := bind_ok.1 ok
  obtain rfl := stepped_ok counted
  obtain ⟨after, vars⟩ := h.putItem hkey ok
  refine ⟨after, ?_, fun name hname => ?_⟩
  · rw [hx]
    exact isNumber_of_stepped counted
  · rw [vars, Entries.get?_assign_of_ne hname]

theorem Counts.countDown (h : Counts c l s₀ s) (ok : countDown c s = .ok () s') :
    Counts c l s₀ s' := by
  obtain ⟨_, s₁, first, ok⟩ := bind_ok.1 ok
  have h := (h.bump (by decide) first).1
  obtain ⟨_, s₂, second, ok⟩ := bind_ok.1 ok
  have h := (h.bump (by decide) second).1
  obtain ⟨loop, _, needed, ok⟩ := bind_ok.1 ok
  obtain ⟨hloop, rfl⟩ := need_ok.1 needed
  cases h.loop.symm.trans hloop
  obtain ⟨left, _, got, ok⟩ := bind_ok.1 ok
  obtain rfl := item_ok got
  obtain ⟨last, _, compared, ok⟩ := bind_ok.1 ok
  obtain rfl := compare_ok compared
  exact (h.putItem (by decide) ok).1

/-- **Rounds are counted in a dict that looks like an account.** -/
theorem counts_of_count {flags : LoopFlags} (ok : Loop.count c flags s = .ok () s') :
    ∃ l, (s.dict l).isAccount = true ∧ Counts c l s s' := by
  obtain ⟨_, s₁, first, ok⟩ := bind_ok.1 ok
  -- that its first number can be read shows that `loop` is a dict of the store
  obtain ⟨l, start⟩ : ∃ l, Counts c l s s := by
    obtain ⟨loop, _, needed, rest⟩ := bind_ok.1 first
    obtain ⟨hloop, rfl⟩ := need_ok.1 needed
    obtain ⟨x, _, got, -⟩ := bind_ok.1 rest
    cases loop with
    | dict l =>
      obtain ⟨hx, -⟩ := need_ok.1 got
      refine ⟨l, hloop, ?_, .refl s, .refl _⟩
      refine Nat.lt_of_not_le fun beyond => ?_
      change (((s.dicts[l]?).getD _).entries).get? _ = _ at hx
      rw [Array.getElem?_eq_none beyond] at hx
      cases hx
    | _ => cases got
  obtain ⟨h₁, number₀, others⟩ := start.bump (by decide) first
  obtain ⟨_, s₂, second, ok⟩ := bind_ok.1 ok
  obtain ⟨h₂, number₁, -⟩ := h₁.bump (by decide) second
  rw [others "index" (by decide)] at number₁
  obtain ⟨loop, _, needed, ok⟩ := bind_ok.1 ok
  obtain ⟨hloop, rfl⟩ := need_ok.1 needed
  cases h₂.loop.symm.trans hloop
  obtain ⟨_, s₃, third, ok⟩ := bind_ok.1 ok
  have h₃ := (h₂.putItem (by decide) third).1
  refine ⟨l, Bool.and_eq_true_iff.2 ⟨number₀, number₁⟩, ?_⟩
  split at ok
  · exact h₃.countDown ok
  · obtain ⟨-, rfl⟩ := pure_ok.1 ok
    exact h₃

theorem put_spares (name : String) (v : Value) :
    Respects (Store.Spares (· = c)) (put c name v) := by
  refine Follows.of_state fun s _ s' ok => ?_
  obtain rfl := put_ok.1 ok
  have agree : s.Agree (· = c) (s.assign c name v) := (Store.Agree.refl s).assign fun _ => rfl
  exact agree.spares

theorem count_spares (flags : LoopFlags) :
    Respects Store.SparesAll (Loop.count c flags) := by
  refine Follows.of_state fun s _ s' ok => ?_
  obtain ⟨l, account, counts⟩ := counts_of_count ok
  refine ⟨counts.agree.mono fun r _ (is : r = l) => Or.inr (is ▸ account), fun r hr _ => ?_⟩
  rcases Decidable.em (r = l) with rfl | other
  · exact counts.changed
  · rw [counts.agree.dict hr other]
    exact .refl _

theorem endRound_follows {T : Store → Store → Prop} [IsPreorder Store T] {flags : LoopFlags}
    (hput : Respects T (put c "_iterated" (.bool true)))
    (hcount : Respects T (Loop.count c flags)) :
    Respects T (endRound c flags) := by
  obtain ⟨withLoop, conditional, hasElse⟩ := flags
  cases hasElse with
  | true =>
    refine hput.bind fun _ => ?_
    cases withLoop with
    | true => exact hcount
    | false => exact .pure _
  | false =>
    cases withLoop with
    | true => exact hcount
    | false => exact .pure _

/-! ## Before and after a loop -/

theorem save_agree (ok : save c s = .ok () s') : s.Agree (· = c) s' := by
  obtain ⟨es, _, got, ok⟩ := bind_ok.1 ok
  cases got
  obtain ⟨v, s₁, made, ok⟩ := bind_ok.1 ok
  cases made
  obtain rfl := put_ok.1 ok
  exact ((Store.Agree.refl s).pushDict _).assign fun _ => rfl

end Loop

/-! ## Statements -/

namespace Store

variable {s s' : Store} {c : Nat}

/-- What code with its variables in `c` changes, as long as these are there. -/
def Reaches (c : Nat) (s s' : Store) : Prop := c < s.dicts.size → s.Spares (· = c) s'

instance : IsPreorder Store (Reaches c) where
  refl s _ := refl_of (Spares (· = c)) s
  trans _ _ _ h h' hc := (h hc).trans (h' (Nat.lt_of_lt_of_le hc (h hc).agree.dictsSize))

theorem Spares.reaches (h : s.SparesAll s') : Reaches c s s' := fun _ => of_all h

theorem Reaches.all {t : Table}
    (h : Reaches s.dicts.size ({ s with dicts := s.dicts.push t } : Store) s') : s.SparesAll s' := by
  refine (h ?_).all
  rw [Array.size_push]
  exact Nat.lt_succ_self _

end Store

/-- What is called reaches no further than the variables it is given. Blocks do not reach these
either: they work on a copy. -/
abbrev Calls.Sparing (calls : Calls) : Prop :=
  calls.Bounded Store.Reaches (fun _ => Store.SparesAll) Store.Reaches

theorem Environment.Steady.spares {env : Environment} (henv : env.Steady) :
    env.FollowedBy Store.SparesAll env :=
  henv.mono fun _ _ => Store.Agree.spares

namespace Frame

variable {calls : Calls} {frame : Frame}

theorem put_reaches (name : String) (v : Value) :
    Respects (Store.Reaches frame.context) (Loop.put frame.context name v) :=
  (Loop.put_spares name v).mono fun _ _ h _ => h

variable (henv : frame.env.Steady) (hcalls : calls.Sparing)

include henv hcalls

theorem bounded_spares : frame.Bounded calls Store.SparesAll :=
  hcalls.bounds henv.spares Store.Reaches.all

/-- **An expression reaches no container.** -/
theorem value_spares (e : Expr) :
    Respects (World.On Store.SparesAll) (value calls frame e) :=
  (bounded_spares henv hcalls).value e

theorem loop_reaches {key val : String} {sequence : Expr} {flags : LoopFlags} {body otherwise : Stmt}
    {mark elseMark endMark : Int}
    (hbody : Respects (World.On (Store.Reaches frame.context)) (run calls frame body))
    (hotherwise : Respects (World.On (Store.Reaches frame.context)) (run calls frame otherwise)) :
    Respects (World.On (Store.Reaches frame.context))
      (run calls frame (.loop key val sequence flags body otherwise mark elseMark endMark)) := by
  refine Follows.of_state fun w out w' ok hc => ?_
  obtain ⟨w₄, s, until_, left, rfl⟩ := run_loop_leave.1 ok
  have there {s' : Store} (h : w.store.Spares (· = frame.context) s') :
      frame.context < s'.dicts.size := Nat.lt_of_lt_of_le hc h.agree.dictsSize
  have last : w.store.Spares (· = frame.context) w₄.store := by
    refine untilLeft_yields (I := w.store.Spares (· = frame.context))
      (value_spares henv hcalls sequence) (put_reaches key) (put_reaches val) hbody hotherwise
      (fun saved => (Loop.save_agree saved).spares) (fun h spared => h.trans (.of_all spared))
      (fun h entered => ?_) (fun change h new => h.mark new change)
      (fun h reached => h.trans (reached (there h))) until_
    obtain ⟨_, opened⟩ := Loop.entered_of_enter (there h) entered
    exact ⟨h.trans opened.agree.spares, h.agree.listsSize, opened.seq⟩
  exact last.trans (Scope.leaveScope_agree left).spares

/-- **A statement reaches no further than its own variables.** -/
theorem run_reaches (code : Stmt) :
    Respects (World.On (Store.Reaches frame.context)) (run calls frame code) := by
  have all : frame.Bounded calls (Store.Reaches frame.context) :=
    (bounded_spares henv hcalls).mono Store.Spares.reaches
  refine run_follows (fun _ => Store.Reaches frame.context) (fun _ _ => True) (fun _ => all)
    (fun h => ⟨h, h⟩) (fun _ => put_reaches _) (fun h => ⟨h, put_reaches _⟩) (fun h => ⟨h, h⟩)
    (fun h body otherwise => ?_) (fun _ => ?_) false trivial
  · exact loop_reaches henv hcalls (body false h) (otherwise false h)
  · exact (Loop.endRound_follows (Loop.put_spares _ _)
      ((Loop.count_spares _).mono fun _ _ => Store.Spares.of_all)).mono fun _ _ h _ => h

end Frame

/-! ## Calls -/

namespace Render

variable {env : Environment} {root : String} {calls : Calls} (henv : env.Steady)
  (hcalls : calls.Sparing)

include henv hcalls

theorem runBlock_spares (context : Nat) (blocks : Blocks) (b : Block) :
    Respects (World.On Store.SparesAll) (runBlock env root calls context blocks b) := by
  cases b with
  | foreign type => exact .of_fails (Eval.fails_fail _)
  | code owner body =>
    refine Follows.of_state fun w out w' ok => ?_
    obtain ⟨copy, w₁, copied, ran⟩ := bind_ok.1 ok
    cases copied
    let frame := env.frame root owner w.store.dicts.size blocks
    exact Store.Reaches.all ((@Frame.run_reaches calls frame henv hcalls body).state ran)

omit hcalls in
/-- **Calls reach no further than the variables they are given**, however deep they go. -/
theorem callsAt_sparing (root : String) (depth : Nat) : (callsAt env root depth).Sparing := by
  induction depth with
  | zero => exact noCalls_bounded
  | succ depth ih =>
    exact
      { display := fun _ _ _ => display_follows ih (Frame.run_reaches henv ih _)
        displayBlock := fun _ _ context blocks _ =>
          displayBlock_follows (fun _ => henv.spares) ih fun b _ =>
            runBlock_spares henv ih context blocks b
        displayParentBlock := displayParentBlock_follows (fun _ => henv.spares) ih
        displayParent := displayParent_follows (fun _ => henv.spares) ih Store.Spares.reaches id }

end Render

/-! ## Without methods of containers -/

namespace Frame

variable {frame : Frame} {depth : Nat} (hcallables : ∀ c, frame.env.registry.Offers c → c.Steady)

include hcallables

theorem match_barred : (Render.callsAt frame.env.barred frame.root depth).Match Eq (fun _ => False)
    (Render.callsAt frame.env frame.root depth) frame.barred frame :=
  (Render.callsAt_alike (Render.parallel_barred hcallables) frame.root frame.root
    (Nat.le_refl depth)).match frame.barred frame.env frame.root

theorem value_barred (e : Expr) :
    Sim Eq (fun _ => False)
      (frame.barred.value (Render.callsAt frame.env.barred frame.root depth) e)
      (frame.value (Render.callsAt frame.env frame.root depth) e) :=
  have henv := Render.parallel_barred hcallables
  value_sim frame.barred henv (match_barred hcallables).toMatchBlocks e

theorem run_barred (code : Stmt) :
    Sim Eq (fun _ => False)
      (frame.barred.run (Render.callsAt frame.env.barred frame.root depth) code)
      (frame.run (Render.callsAt frame.env frame.root depth) code) :=
  run_sim frame.barred (Render.parallel_barred hcallables) (match_barred hcallables) code

end Frame
end Stencil
