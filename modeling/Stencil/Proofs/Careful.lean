import Stencil.Proofs.Account
import Stencil.Proofs.Barred
import Stencil.Proofs.Loading

/-!
# Code that leaves loops alone

A loop keeps its account in variables that all code can get at. Code is *tame* if it does not set
`loop` or `_parent` itself. That is not enough by itself, since it may call methods of containers and
code that is not tame. A *careful* rendering refuses to do either: in it, methods of containers
cannot be called, and a template or a block is shown only if its code is tame, a template only with
proper variables.
-/

namespace Stencil

open Eval Loop
open Step (Fails Follows Respects Kept Sim Tracks Yields bind_ok pure_ok)
open Store (Extends)

/-! ## Careful renderings -/

/-- Whether code sets neither `loop` nor `_parent`. Code in a loop that has a variable `loop` of its
own may count the rounds of that loop. -/
def Stmt.tame (own : Bool) : Stmt → Bool
  | .skip | .text _ | .print _ _ | .block _ _ | .inclusion _ _ _ _ _ _ => true
  | .seq first second => first.tame own && second.tame own
  | .assign name _ _ => free name
  | .capture name body _ => free name && body.tame own
  | .branch _ yes no _ => yes.tame own && no.tame own
  | .loop key val _ flags body otherwise _ _ _ =>
    free key && free val && body.tame flags.withLoop && otherwise.tame false
  | .round flags _ => own || !flags.withLoop

def Block.tame : Block → Bool
  | .code _ body => body.tame false
  | .foreign _ => true

namespace Render

def onlyWhere (fit : World → Bool) (x : Eval String) : Eval String := do
  if fit (← get) then x else fail .stuck

def found? (t : Template) (name : String) (blocks : Blocks) (useBlocks : Bool) : Option Block :=
  (if useBlocks then blocks.lookup name else none).or (t.ownBlocks.lookup name)

/-- Calls that may go a number of levels deep, to tame code only. -/
def carefulAt (env : Environment) (root : String) : Nat → Calls
  | 0 => noCalls
  | depth + 1 =>
    { display := fun t context blocks =>
        onlyWhere (fun w => t.body.tame false && (w.store.dict context).proper)
          (display env.barred root (carefulAt env root depth) t context blocks)
      displayBlock := fun t name context blocks useBlocks =>
        onlyWhere (fun _ => (found? t name blocks useBlocks).all Block.tame)
          (displayBlock env.barred root (carefulAt env root depth) t name context blocks useBlocks)
      displayParentBlock := displayParentBlock env.barred root (carefulAt env root depth)
      displayParent := displayParent env.barred root (carefulAt env root depth) }

variable {fit : World → Bool} {x : Eval String} {env : Environment}

theorem onlyWhere_ok {w w' : World} {out : String} :
    onlyWhere fit x w = .ok out w' ↔ fit w = true ∧ x w = .ok out w' := by
  unfold onlyWhere
  rw [bind_ok]
  constructor
  · rintro ⟨_, _, got, ok⟩
    obtain ⟨rfl, rfl⟩ := Step.get_ok.1 got
    split at ok
    · next fits => exact ⟨fits, ok⟩
    · cases ok
  · rintro ⟨fits, ok⟩
    refine ⟨w, w, rfl, ?_⟩
    rw [if_pos fits]
    exact ok

theorem onlyWhere_sim {E : World → World → Prop} {P : Fault → Prop} {y : Eval String}
    (h : Sim E P x y) : Sim E P (onlyWhere fit x) y :=
  fun w v hwv out w' ok => h w v hwv out w' (onlyWhere_ok.1 ok).2

/-- An environment does the same without methods of containers, as long as none is called. -/
theorem parallel_barred (hcallables : ∀ c, env.registry.Offers c → c.Steady) :
    env.barred.Parallel Step.Any Eq (fun _ => False) env where
  matching :=
    { store := by
        rintro w _ rfl
        rfl
      put := by
        rintro w _ s rfl -
        rfl
      placed := fun _ _ _ never => never }
  follows := (env.barred_follows hcallables).mono fun _ _ _ => trivial
  loads _ := .refl _
  cached := by
    rintro w _ rfl unit t found
    exact found

/-- **What succeeds carefully succeeds**, in the same way. -/
theorem carefulAt_alike (hcallables : ∀ c, env.registry.Offers c → c.Steady) (root : String)
    (depth : Nat) :
    (carefulAt env root depth).Alike Eq (fun _ => False) (callsAt env root depth) := by
  have henv := parallel_barred hcallables
  induction depth with
  | zero => exact noCalls_alike _
  | succ depth ih =>
    have next := (henv.keeps root root).next ih
    exact
      { next with
        display := fun t _ _ paired blocks =>
          (onlyWhere_sim (sim_of_rel_eq (next.display t paired blocks))).related fun _ => rfl
        displayBlock := fun t name _ _ paired blocks useBlocks =>
          (onlyWhere_sim (sim_of_rel_eq (next.displayBlock t name paired blocks useBlocks))).related
            fun _ => rfl }

end Render

/-! ## What is left alone -/

def World.On (S : Store → Store → Prop) (w w' : World) : Prop := S w.store w'.store

instance {S : Store → Store → Prop} [IsPreorder Store S] : IsPreorder World (World.On S) where
  refl w := refl_of S w.store
  trans _ _ _ := trans_of S

namespace Store

/-- The variables in the dict `c` are there, and proper. -/
structure Holds (s : Store) (c : Nat) : Prop where
  there : c < s.dicts.size
  proper : (s.dict c).proper = true

/-- All containers are left alone, as long as the variables in `c` are proper. -/
def Grows (c : Nat) (s s' : Store) : Prop := s.Holds c → s.Extends s'

/-- All containers are left alone, except for the variables in `c` and, in a loop of its `own`, for
the account of that loop. Of the variables, `loop` and `_parent` are left alone. -/
structure Spared (own : Bool) (c : Nat) (s s' : Store) : Prop where
  agree : s.Agree
    (fun r => r = c ∨ own = true ∧ (s.dict c).get? (.text "loop") = some (.dict r)) s'
  same : ∀ name, free name = false →
    (s'.dict c).get? (.text name) = (s.dict c).get? (.text name)
  holds : s'.Holds c

/-- What is left alone by code with proper variables in `c`. -/
def Keeps (own : Bool) (c : Nat) (s s' : Store) : Prop := s.Holds c → s.Spared own c s'

variable {own : Bool} {c : Nat} {s s' s'' : Store}

theorem Holds.extends (h : s.Holds c) (hs : s.Extends s') : s'.Holds c := by
  refine ⟨Nat.lt_of_lt_of_le h.there hs.dictsSize, ?_⟩
  rw [hs.dict h.there id]
  exact h.proper

theorem Holds.refl (h : s.Holds c) : s.Spared own c s := ⟨.refl s, fun _ _ => rfl, h⟩

theorem Spared.trans (h : s.Spared own c s') (h' : s'.Spared own c s'') : s.Spared own c s'' where
  agree := by
    refine h.agree.trans (h'.agree.mono fun r _ touched => touched.imp_right ?_)
    rintro ⟨hown, loop⟩
    exact ⟨hown, (h.same "loop" rfl).symm.trans loop⟩
  same name hname := (h'.same name hname).trans (h.same name hname)
  holds := h'.holds

instance : IsPreorder Store (Grows c) where
  refl s _ := .refl s
  trans _ _ _ h h' hs := (h hs).trans (h' (hs.extends (h hs)))

instance : IsPreorder Store (Keeps own c) where
  refl _ hs := hs.refl
  trans _ _ _ h h' hs := (h hs).trans (h' (h hs).holds)

theorem Holds.spared (h : s.Holds c) (hs : s.Extends s') : s.Spared own c s' where
  agree := .of_extends hs
  same name _ := by rw [hs.dict h.there id]
  holds := h.extends hs

/-- Code that counts no rounds leaves more alone. -/
theorem Spared.less (h : s.Spared false c s') : s.Spared own c s' :=
  { h with agree := h.agree.mono fun _ _ touched => Or.inl (touched.resolve_right nofun) }

theorem Grows.keeps (h : Grows c s s') : Keeps own c s s' := fun hs => hs.spared (h hs)

theorem Holds.assign (h : s.Holds c) {name : String} (hname : free name = true) (v : Value) :
    s.Spared own c (s.assign c name v) where
  agree := (Agree.refl s).assign fun _ => Or.inl rfl
  same other hother := by
    rw [dict_assign_self h.there]
    refine Entries.get?_assign_of_ne ?_
    rintro rfl
    rw [hname] at hother
    cases hother
  holds := by
    refine ⟨size_assign.symm ▸ h.there, ?_⟩
    rw [dict_assign_self h.there]
    exact Entries.proper_assign h.proper

theorem Spared.extends {t : Table}
    (h : ({ s with dicts := s.dicts.push t } : Store).Spared false s.dicts.size s') :
    s.Extends s' := by
  have grown : s.Agree (· = s.dicts.size) { s with dicts := s.dicts.push t } :=
    (Agree.refl s).pushDict t
  have touched : s.Agree (· = s.dicts.size) s' :=
    grown.trans (h.agree.mono fun _ _ touched => touched.resolve_right nofun)
  exact touched.mono fun r hr new => absurd new (Nat.ne_of_lt hr)

end Store

/-! ## Expressions -/

section Self

variable {α : Type} {S : Store → Store → Prop} {x : Eval α}

theorem Eval.follows_ofAct {act : Act α} (h : Respects S act) :
    Respects (World.On S) (ofAct act) := by
  refine Follows.of_state fun w a w' ok => ?_
  obtain ⟨s, hs, rfl⟩ := ofAct_ok.1 ok
  exact h.state hs

theorem Frame.follows_located {T : World → World → Prop} (frame : Frame) (mark : Int)
    (h : Respects T x) : Respects T (frame.located mark x) :=
  h.rethrow fun _ => Fails.throw _

variable [IsPreorder Store S]

/-- What a step does to the store can be told by comparing it with itself, from any store. -/
theorem Eval.follows_of_sim
    (h : ∀ s₀, Sim (Kept fun w : World => S s₀ w.store) (fun _ => False) x x) :
    Respects (World.On S) x := by
  refine Follows.of_state fun w a w' ok => ?_
  rcases h w.store w w ⟨rfl, refl_of S w.store⟩ a w' ok with ⟨_, _, _, hs⟩ | ⟨_, _, _, never⟩
  · exact hs
  · exact never.elim

theorem Eval.sim_of_follows {P : Fault → Prop} (h : Respects (World.On S) x) (s₀ : Store) :
    Sim (Kept fun w : World => S s₀ w.store) P x x := by
  rintro w _ ⟨rfl, hw⟩ a w' ok
  exact Or.inl ⟨w', ok, rfl, trans_of S hw (h.state ok)⟩

/-- An environment compared with itself: loading templates leaves the store alone. -/
theorem Environment.FollowedBy.parallel {env : Environment} (henv : env.FollowedBy S env)
    (s₀ : Store) :
    env.Parallel S (Kept fun w : World => S s₀ w.store) (fun _ => False) env where
  matching :=
    { store := fun h => congrArg World.store h.1
      put := by
        rintro w _ s ⟨rfl, hw⟩ hs
        exact ⟨rfl, trans_of S hw hs⟩
      placed := fun _ _ _ never => never }
  follows := henv
  loads name :=
    { ok := by
        rintro w _ ⟨rfl, hw⟩ t w' loaded
        refine ⟨w', loaded, rfl, ?_⟩
        obtain ⟨source, -, loaded⟩ := Environment.loadTemplate_ok.1 loaded
        rcases Environment.load_ok.1 loaded with ⟨-, rfl⟩ | ⟨-, -, rfl⟩
        · exact hw
        · exact hw
      error := by
        rintro w _ ⟨rfl, hw⟩ f w' failed
        refine ⟨w', failed, rfl, ?_⟩
        rcases Environment.loadTemplate_error.1 failed with ⟨-, rfl⟩ | ⟨source, -, failed⟩
        · exact hw
        · obtain ⟨-, -, rfl⟩ := Environment.load_error.1 failed
          exact hw }
  cached := by
    rintro w _ ⟨rfl, -⟩ unit t found
    exact found

end Self

/-- What code comes to through its blocks stays within a relation of stores. -/
structure Calls.Within (S : Store → Store → Prop) (calls : Calls) (frame : Frame) : Prop where
  displayBlock : ∀ name,
    Respects (World.On S) (calls.displayBlock frame.template name frame.context frame.blocks true)
  displayParentBlock : ∀ name,
    Respects (World.On S) (calls.displayParentBlock frame.template name frame.context frame.blocks)

section Within

variable {S : Store → Store → Prop} [IsPreorder Store S] {calls : Calls}

theorem Calls.Within.match {frame : Frame} (hcalls : calls.Within S frame) (s₀ : Store) :
    calls.MatchBlocks (Kept fun w : World => S s₀ w.store) (fun _ => False) calls frame frame where
  displayBlock name := sim_of_follows (hcalls.displayBlock name) s₀
  displayParentBlock name := sim_of_follows (hcalls.displayParentBlock name) s₀

variable {frame : Frame} (henv : frame.env.FollowedBy S frame.env)

include henv

namespace Frame

theorem resolveValue_follows (v : Value) (ignoreMissing : Bool) (line : Int) :
    Respects (World.On S) (frame.resolveValue v ignoreMissing line) :=
  follows_of_sim fun s₀ => sim_of_rel_eq
    (((henv.parallel s₀).serves _ _).resolveValue (.refl v) ignoreMissing line)

theorem inclusion_follows
    (hdisplay : ∀ t table (w : World) out w', calls.display t w.store.dicts.size []
      { w with store := { w.store with dicts := w.store.dicts.push table } } = .ok out w' →
        S w.store w'.store)
    (name bindings : Value) (only ignoreMissing : Bool) (line : Int) :
    Respects (World.On S) (frame.inclusion calls name bindings only ignoreMissing line) := by
  refine Follows.bind ?given fun extra => Follows.bind ?inherited fun base =>
    (resolveValue_follows henv name ignoreMissing line).bind fun t => ?shown
  case given =>
    unfold given
    split
    · exact .pure _
    · exact follows_ofAct (follows_dictEntries _)
    · exact .of_fails (fails_raise frame line _ _)
  case inherited =>
    unfold inherited
    split
    · exact .pure _
    · exact follows_ofAct (follows_dictEntries _)
  case shown =>
    cases t with
    | none => exact .pure _
    | some t =>
      refine Follows.of_state fun w out w' ok => ?_
      obtain ⟨v, w₁, made, ok⟩ := bind_ok.1 ok
      obtain ⟨s₁, made, rfl⟩ := ofAct_ok.1 made
      cases made
      exact hdisplay t _ w out w' ok

variable (hcalls : calls.Within S frame)

include hcalls

/-- **An expression stays within what its operations and blocks stay within.** -/
theorem value_follows (e : Expr) :
    Respects (World.On S) (value calls frame e) :=
  follows_of_sim fun s₀ =>
    value_sim frame (henv.parallel s₀) (hcalls.match s₀) e

end Frame
end Within

/-! ## Code within a relation of stores -/

/-- What code comes to, besides setting its variables, stays within a relation of stores. -/
structure Frame.Bounded (calls : Calls) (frame : Frame) (T : Store → Store → Prop) : Prop where
  value : ∀ e, Respects (World.On T) (frame.value calls e)
  block : ∀ name,
    Respects (World.On T) (calls.displayBlock frame.template name frame.context frame.blocks true)
  inclusion : ∀ name bindings only ignoreMissing line,
    Respects (World.On T) (frame.inclusion calls name bindings only ignoreMissing line)

/-- What is called stays within relations of stores, for each dict of variables it may be given:
templates that are shown within `D`, blocks within `S`, and parents within `T`. -/
structure Calls.Bounded (D S T : Nat → Store → Store → Prop) (calls : Calls) : Prop where
  display : ∀ t context blocks, Respects (World.On (D context)) (calls.display t context blocks)
  displayBlock : ∀ t name context blocks useBlocks,
    Respects (World.On (S context)) (calls.displayBlock t name context blocks useBlocks)
  displayParentBlock : ∀ t name context blocks,
    Respects (World.On (S context)) (calls.displayParentBlock t name context blocks)
  displayParent : ∀ t context blocks,
    Respects (World.On (T context)) (calls.displayParent t context blocks)

section Bounded

variable {calls : Calls} {frame : Frame} {D S T : Nat → Store → Store → Prop}

theorem Render.noCalls_bounded : noCalls.Bounded D S T where
  display _ _ _ := .of_fails (fails_fail _)
  displayBlock _ _ _ _ _ := .of_fails (fails_fail _)
  displayParentBlock _ _ _ _ := .of_fails (fails_fail _)
  displayParent _ _ _ := .of_fails (fails_fail _)

theorem Calls.Bounded.within (h : calls.Bounded D S T) (frame : Frame) :
    calls.Within (S frame.context) frame where
  displayBlock name := h.displayBlock _ name _ _ true
  displayParentBlock name := h.displayParentBlock _ name _ _

theorem Calls.Bounded.bounds [∀ c, IsPreorder Store (S c)] (h : calls.Bounded D S T)
    (henv : frame.env.FollowedBy (S frame.context) frame.env)
    (shown : ∀ {s s' table}, D s.dicts.size { s with dicts := s.dicts.push table } s' →
      S frame.context s s') : frame.Bounded calls (S frame.context) where
  value := Frame.value_follows henv (h.within frame)
  block := (h.within frame).displayBlock
  inclusion := Frame.inclusion_follows henv fun t _ _ _ _ ok => shown ((h.display t _ []).state ok)

theorem Frame.Bounded.mono {S T : Store → Store → Prop} (h : frame.Bounded calls S)
    (weaker : ∀ {s s'}, S s s' → T s s') : frame.Bounded calls T where
  value e := (h.value e).mono fun _ _ => weaker
  block name := (h.block name).mono fun _ _ => weaker
  inclusion name bindings only ignoreMissing line :=
    (h.inclusion name bindings only ignoreMissing line).mono fun _ _ => weaker

/-- **Code stays within a relation of stores** if all it comes to does, and it sets only variables
and counts only rounds within it. Loops may have a relation of their own for what is in them. -/
theorem Frame.run_follows (T : Bool → Store → Store → Prop) [∀ own, IsPreorder Store (T own)]
    (fits : Bool → Stmt → Prop) (bounded : ∀ own, frame.Bounded calls (T own))
    (seq : ∀ {own a b}, fits own (.seq a b) → fits own a ∧ fits own b)
    (assign : ∀ {own name e mark}, fits own (.assign name e mark) →
      ∀ v, Respects (T own) (put frame.context name v))
    (capture : ∀ {own name a mark}, fits own (.capture name a mark) →
      fits own a ∧ ∀ v, Respects (T own) (put frame.context name v))
    (branch : ∀ {own c a b mark}, fits own (.branch c a b mark) → fits own a ∧ fits own b)
    (loop : ∀ {own key val e flags a b mark elseMark endMark},
      fits own (.loop key val e flags a b mark elseMark endMark) →
      (∀ own, fits own a → Respects (World.On (T own)) (frame.run calls a)) →
      (∀ own, fits own b → Respects (World.On (T own)) (frame.run calls b)) →
      Respects (World.On (T own)) (frame.run calls (.loop key val e flags a b mark elseMark endMark)))
    (round : ∀ {own flags mark}, fits own (.round flags mark) →
      Respects (T own) (endRound frame.context flags))
    {code : Stmt} (own : Bool) (h : fits own code) :
    Respects (World.On (T own)) (frame.run calls code) := by
  -- what is in a loop may be held to another relation than the code around it
  induction code generalizing own with
  | skip | text => exact .pure _
  | seq first second first_ih second_ih =>
    exact (first_ih _ (seq h).1).bind fun _ => (second_ih _ (seq h).2).bind fun _ => .pure _
  | print e mark =>
    exact follows_located frame mark (((bounded own).value e).bind fun _ =>
      follows_ofAct (follows_print _))
  | block name mark => exact follows_located frame mark ((bounded own).block name)
  | assign name e mark =>
    exact follows_located frame mark (((bounded own).value e).bind fun _ =>
      (follows_ofAct (assign h _)).bind fun _ => .pure _)
  | capture name body mark ih =>
    exact follows_located frame mark ((ih _ (capture h).1).bind fun _ =>
      (follows_ofAct ((capture h).2 _)).bind fun _ => .pure _)
  | inclusion template bindings only ignoreMissing line mark =>
    refine follows_located frame mark (((bounded own).value template).bind fun _ =>
      Follows.bind ?_ fun _ => (bounded own).inclusion _ _ only ignoreMissing line)
    cases bindings with
    | none => exact .pure _
    | some e => exact (bounded own).value e
  | branch condition yes no mark yes_ih no_ih =>
    refine (follows_located frame mark (((bounded own).value condition).bind fun _ => ?_)).bind
      fun b => ?_
    · exact Follows.get.bind fun _ => .pure _
    · cases b with
      | true => exact yes_ih _ (branch h).1
      | false => exact no_ih _ (branch h).2
  | loop key val sequence flags body otherwise mark elseMark endMark body_ih otherwise_ih =>
    exact loop h body_ih otherwise_ih
  | round flags mark =>
    exact follows_located frame mark ((follows_ofAct (round h)).bind fun _ => .pure _)

theorem Frame.rounds_follows {T : Store → Store → Prop} [IsPreorder Store T] {key val : String}
    (hkey : ∀ v, Respects T (put frame.context key v))
    (hval : ∀ v, Respects T (put frame.context val v)) {body : Eval String}
    (hbody : Respects (World.On T) body) (pairs : List Value) :
    Respects (World.On T) (frame.rounds key val body pairs) := by
  induction pairs with
  | nil => exact .pure _
  | cons pair rest ih =>
    exact (follows_ofAct (hkey _)).bind fun _ => (follows_ofAct (hval _)).bind fun _ =>
      hbody.bind fun _ => ih.bind fun _ => .pure _

namespace Render

variable {env : Environment} {root : String}

theorem display_follows [∀ c, IsPreorder Store (T c)] (hcalls : calls.Bounded D S T) {t : Template}
    {context : Nat} {blocks : Blocks} (hbody : Respects (World.On (T context))
      ((env.frame root t context (blocks.atop t.ownBlocks)).run calls t.body)) :
    Respects (World.On (T context)) (display env root calls t context blocks) := by
  refine hbody.bind fun _ => ?_
  split
  · exact .pure _
  · exact Frame.follows_located _ _ (hcalls.displayParent _ _ _)

variable [∀ c, IsPreorder Store (S c)] (henv : ∀ c, env.FollowedBy (S c) env)
  (hcalls : calls.Bounded D S T)

include henv hcalls

theorem parentOf_bounded (t : Template) (context : Nat) :
    Respects (World.On (S context)) (parentOf env root calls t context) :=
  follows_of_sim fun s₀ => sim_of_rel_eq ((((henv context).parallel s₀).serves root root).parentOf
    rfl ((hcalls.within (env.frame root t context [])).match s₀).related ⟨rfl, rfl⟩)

theorem displayBlock_follows {t : Template} {name : String} {context : Nat} {blocks : Blocks}
    {useBlocks : Bool} (hblock : ∀ b ∈ found? t name blocks useBlocks,
      Respects (World.On (S context)) (runBlock env root calls context blocks b)) :
    Respects (World.On (S context))
      (displayBlock env root calls t name context blocks useBlocks) := by
  unfold displayBlock
  dsimp only
  split
  · next b found => exact hblock b found
  · refine (parentOf_bounded henv hcalls t context).bind fun parent => ?_
    cases parent with
    | some parent => exact hcalls.displayBlock _ _ _ _ _
    | none =>
      dsimp only
      split
      · exact .of_fails (Frame.fails_raise _ 0 _ _)
      · exact .of_fails (Frame.fails_raise _ 0 _ _)

theorem displayParentBlock_follows (t : Template) (name : String) (context : Nat) (blocks : Blocks) :
    Respects (World.On (S context)) (displayParentBlock env root calls t name context blocks) := by
  refine (parentOf_bounded henv hcalls t context).bind fun parent => ?_
  cases parent with
  | some parent => exact hcalls.displayBlock _ _ _ _ _
  | none => exact .of_fails (Frame.fails_raise _ 0 _ _)

theorem displayParent_follows [∀ c, IsPreorder Store (T c)] (weaker : ∀ {c s s'}, S c s s' → T c s s')
    (shown : ∀ {c s s'}, D c s s' → T c s s') (t : Template) (context : Nat) (blocks : Blocks) :
    Respects (World.On (T context)) (displayParent env root calls t context blocks) := by
  refine ((parentOf_bounded henv hcalls t context).mono fun _ _ => weaker).bind
    fun parent => ?_
  cases parent with
  | some parent => exact (hcalls.display _ _ _).mono fun _ _ => shown
  | none => exact .of_fails (Frame.fails_raise _ 0 _ _)

end Render
end Bounded

/-- What a template that is shown leaves alone, with its variables in `c`. -/
def Store.ShowsFrom (c : Nat) (s s' : Store) : Prop := c < s.dicts.size → s.Spared false c s'

/-- What is called leaves alone what it should. -/
abbrev Calls.Careful (calls : Calls) : Prop :=
  calls.Bounded Store.ShowsFrom Store.Grows (Store.Keeps false)

/-- An environment whose operations leave all containers alone. -/
abbrev Environment.Steady (env : Environment) : Prop := env.FollowedBy Extends env

theorem Environment.Steady.grows {env : Environment} (henv : env.Steady) (c : Nat) :
    env.FollowedBy (Store.Grows c) env :=
  henv.mono fun _ _ h _ => h

namespace Frame

variable {calls : Calls} {frame : Frame} (henv : frame.env.Steady) (hcalls : calls.Careful)

include henv hcalls

/-- **An expression leaves all containers alone**, and so do blocks and inclusions. -/
theorem bounded_grows : frame.Bounded calls (Store.Grows frame.context) := by
  refine hcalls.bounds (henv.grows _) fun shown _ => (shown ?_).extends
  rw [Array.size_push]
  exact Nat.lt_succ_self _

theorem bounded_keeps (own : Bool) : frame.Bounded calls (Store.Keeps own frame.context) :=
  (bounded_grows henv hcalls).mono Store.Grows.keeps

end Frame

/-! ## Statements -/

namespace Loop

variable {c : Nat} {s s' : Store} {own : Bool} {v x : Value} {key : String}

theorem put_keeps {name : String} (hname : free name = true) (v : Value) :
    Respects (Store.Keeps own c) (put c name v) := by
  refine Follows.of_state fun s _ s' ok hs => ?_
  obtain rfl := put_ok.1 ok
  exact hs.assign hname v

theorem item_ok (h : item v key s = .ok x s') : s = s' := by
  cases v with
  | dict r => exact (need_ok.1 h).2
  | _ => cases h

theorem stepped_ok {up : Bool} (h : stepped v up s = .ok x s') : s = s' := by
  cases v with
  | int | float =>
    cases h
    rfl
  | _ => cases h

theorem compare_ok {r : Relation} {y : Value} {b : Bool} (h : Act.compare r x y s = .ok b s') :
    s = s' := by
  obtain ⟨_, _, got, h⟩ := bind_ok.1 h
  cases got
  cases compared : s.compare r x y with
  | ok b =>
    rw [compared] at h
    exact (pure_ok.1 h).2
  | error f =>
    rw [compared] at h
    cases h

theorem putItem_spared (hs : s.Holds c) (hloop : (s.dict c).get? (.text "loop") = some v)
    (hkey : free key = true) (h : putItem v key x s = .ok () s') : s.Spared true c s' := by
  cases v with
  | dict r =>
    obtain rfl := put_ok.1 h
    rcases Decidable.em (r = c) with rfl | other
    · exact hs.assign hkey x
    · have unchanged : (s.assign r key x).dict c = s.dict c := Store.dict_assign_of_ne (Ne.symm other)
      refine ⟨(Store.Agree.refl s).assign fun _ => Or.inr ⟨rfl, hloop⟩, fun _ _ => ?_, ?_, ?_⟩
      · rw [unchanged]
      · exact Store.size_assign.symm ▸ hs.there
      · rw [unchanged]
        exact hs.proper
  | _ => cases h

theorem bump_keeps (hkey : free key = true) (up : Bool) :
    Respects (Store.Keeps true c) (bump c key up) := by
  refine Follows.of_state fun s _ s' ok hs => ?_
  obtain ⟨loop, _, needed, ok⟩ := bind_ok.1 ok
  obtain ⟨hloop, rfl⟩ := need_ok.1 needed
  obtain ⟨x, _, got, ok⟩ := bind_ok.1 ok
  obtain rfl := item_ok got
  obtain ⟨y, _, counted, ok⟩ := bind_ok.1 ok
  obtain rfl := stepped_ok counted
  exact putItem_spared hs hloop hkey ok

theorem countDown_keeps : Respects (Store.Keeps true c) (countDown c) := by
  refine (bump_keeps rfl false).bind fun _ => (bump_keeps rfl false).bind fun _ => ?_
  refine Follows.of_state fun s _ s' ok hs => ?_
  obtain ⟨loop, _, needed, ok⟩ := bind_ok.1 ok
  obtain ⟨hloop, rfl⟩ := need_ok.1 needed
  obtain ⟨left, _, got, ok⟩ := bind_ok.1 ok
  obtain rfl := item_ok got
  obtain ⟨last, _, compared, ok⟩ := bind_ok.1 ok
  obtain rfl := compare_ok compared
  exact putItem_spared hs hloop rfl ok

theorem count_keeps (flags : LoopFlags) :
    Respects (Store.Keeps true c) (count c flags) := by
  refine (bump_keeps rfl true).bind fun _ => (bump_keeps rfl true).bind fun _ => ?_
  refine Follows.of_state fun s _ s' ok hs => ?_
  obtain ⟨loop, _, needed, ok⟩ := bind_ok.1 ok
  obtain ⟨hloop, rfl⟩ := need_ok.1 needed
  obtain ⟨_, s₁, first, ok⟩ := bind_ok.1 ok
  have spared := putItem_spared hs hloop rfl first
  split at ok
  · exact spared.trans (countDown_keeps.state ok spared.holds)
  · obtain ⟨-, rfl⟩ := pure_ok.1 ok
    exact spared

theorem endRound_keeps {flags : LoopFlags} (h : (own || !flags.withLoop) = true) :
    Respects (Store.Keeps own c) (endRound c flags) := by
  have iterated := @put_keeps c own "_iterated" rfl (.bool true)
  obtain ⟨withLoop, conditional, hasElse⟩ := flags
  cases withLoop with
  | false =>
    cases hasElse with
    | true => exact iterated.bind fun _ => .pure _
    | false => exact .pure _
  | true =>
    obtain rfl : own = true := by simpa using h
    cases hasElse with
    | true => exact iterated.bind fun _ => count_keeps _
    | false => exact count_keeps _

/-- What holds in a loop over the variables in `c` that has started in the store `s₀` and keeps what
was there in the dict `p`. -/
structure Inside (own : Bool) (c p : Nat) (s₀ s : Store) : Prop where
  agree : s₀.Agree (· = c) s
  before : s₀.Holds c
  holds : s.Holds c
  parent : (s.dict c).get? (.text "_parent") = some (.dict p)
  saved : s.dict p = s₀.dict c
  new : s₀.dicts.size ≤ p
  there : p < s.dicts.size
  loop : own = true → ∃ l, (s.dict c).get? (.text "loop") = some (.dict l) ∧ s₀.dicts.size ≤ l ∧ l ≠ p

namespace Inside

variable {own : Bool} {p : Nat} {s₀ : Store}

theorem of_save (hs : s.Holds c) (ok : save c s = .ok () s') :
    Inside false c s.dicts.size s s' := by
  obtain ⟨es, _, got, ok⟩ := bind_ok.1 ok
  cases got
  obtain ⟨v, s₁, made, ok⟩ := bind_ok.1 ok
  cases made
  obtain rfl := put_ok.1 ok
  let t : Table := .filled (s.dict c)
  have grown : s.Extends { s with dicts := s.dicts.push t } := (Store.Agree.refl s).pushDict t
  have agree : s.Agree (· = c) { s with dicts := s.dicts.push t } := .of_extends grown
  have held := hs.extends grown
  have apart : s.dicts.size ≠ c := Nat.ne_of_gt hs.there
  have vars := @Store.dict_assign_self _ c "_parent" (.dict s.dicts.size) held.there
  refine ⟨agree.assign fun _ => rfl, hs, ⟨?_, ?_⟩, ?_, ?_, Nat.le_refl _, ?_, nofun⟩
  · rw [Store.size_assign]
    exact held.there
  · rw [vars]
    exact Entries.proper_assign held.proper
  · rw [vars, Entries.get?_assign_self]
  · rw [Store.dict_assign_of_ne apart, Store.dict_pushDict_self]
    rfl
  · rw [Store.size_assign, Array.size_push]
    exact Nat.lt_succ_self _

theorem apart (h : Inside own c p s₀ s) : p ≠ c := by
  have := h.before.there
  have := h.new
  omega

theorem spared (h : Inside own c p s₀ s) (hs : s.Spared own c s') : Inside own c p s₀ s' where
  agree := by
    have before : s₀.Agree (fun r => r = c ∨ s₀.dicts.size ≤ r) s :=
      h.agree.mono fun _ _ => Or.inl
    have since : s.Agree (fun r => r = c ∨ s₀.dicts.size ≤ r) s' := by
      refine hs.agree.mono fun r _ touched => touched.imp_right ?_
      rintro ⟨hown, hloop⟩
      obtain ⟨l, hl, new, -⟩ := h.loop hown
      cases hl.symm.trans hloop
      exact new
    exact (before.trans since).mono fun r hr touched =>
      touched.resolve_right (Nat.not_le_of_lt hr)
  before := h.before
  holds := hs.holds
  parent := (hs.same "_parent" rfl).trans h.parent
  saved := by
    refine (hs.agree.dict h.there ?_).trans h.saved
    rintro (is | ⟨hown, hloop⟩)
    · exact h.apart is
    · obtain ⟨l, hl, -, other⟩ := h.loop hown
      cases hl.symm.trans hloop
      exact other rfl
  new := h.new
  there := Nat.lt_of_lt_of_le h.there hs.agree.dictsSize
  loop hown := by
    obtain ⟨l, hl, rest⟩ := h.loop hown
    exact ⟨l, (hs.same "loop" rfl).trans hl, rest⟩

theorem enter (h : Inside false c p s₀ s) {flags : LoopFlags} {v : Value}
    (he : Entered s c flags v (.dict p) s') : Inside flags.withLoop c p s₀ s' := by
  refine ⟨h.agree.trans he.agree, h.before, ⟨?_, ?_⟩, ?_, ?_, h.new, ?_, fun hown => ?_⟩
  · exact Nat.lt_of_lt_of_le h.holds.there he.agree.dictsSize
  · rw [he.vars]
    exact proper_opening h.holds.proper
  · rw [he.vars, get?_opening_of_ne (by decide) (by decide) (by decide), h.parent]
  · rw [he.agree.dict h.there h.apart, h.saved]
  · exact Nat.lt_of_lt_of_le h.there he.agree.dictsSize
  · refine ⟨s.dicts.size, ?_, h.agree.dictsSize, Nat.ne_of_gt h.there⟩
    rw [he.vars, get?_opening_loop hown]

theorem mark (h : Inside own c p s₀ s) {q : Nat} (hq : s₀.lists.size ≤ q) (change : Nat → Nat) :
    Inside own c p s₀ (s.mark q change) :=
  ⟨h.agree.setList hq _, h.before, ⟨h.holds.there, h.holds.proper⟩, h.parent, h.saved, h.new,
    h.there, h.loop⟩

theorem leave (h : Inside own c p s₀ s) {outer : Bool} {scope : Scope} {targets : List String}
    (ok : scope.leaveScope c targets s = .ok () s') : s₀.Spared outer c s' := by
  have proper : (s.dict p).proper = true := h.saved ▸ h.before.proper
  obtain ⟨_, left, agree, after, back⟩ :=
    scope.leaveScope_ok targets h.parent h.apart h.holds.there h.holds.proper proper
  cases left.symm.trans ok
  refine ⟨(h.agree.trans agree).mono fun _ _ => Or.inl, fun name hname => ?_, ?_, after⟩
  · rw [back name hname, h.saved]
  · exact Nat.lt_of_lt_of_le h.holds.there agree.dictsSize

end Inside

end Loop

namespace Frame

variable {calls : Calls} {frame : Frame} {own : Bool} {p : Nat} {s₀ : Store}
  {key val shown : String} {body : Stmt} {none : Bool}

theorem looping_ok {body : Eval String} {w w' : World} {q : Nat}
    (hseq : (w.store.dict frame.context).get? (.text "_seq") = some (.list q)) :
    frame.looping key val body w = .ok shown w' ↔
      ∃ w₁, frame.rounds key val body (w.store.list q)
        { w with store := w.store.mark q (· + 1) } = .ok shown w₁ ∧
        { w₁ with store := w₁.store.mark q (· - 1) } = w' := by
  unfold looping
  constructor
  · intro ok
    obtain ⟨seq, _, needed, ok⟩ := bind_ok.1 ok
    obtain ⟨got, rfl⟩ := need_ok.1 needed
    cases hseq.symm.trans got
    obtain ⟨_, _, looked, ok⟩ := bind_ok.1 ok
    cases looked
    obtain ⟨_, _, marked, ok⟩ := bind_ok.1 ok
    cases marked
    obtain ⟨_, w₁, ran, ok⟩ := bind_ok.1 ok
    obtain ⟨_, _, unmarked, ok⟩ := bind_ok.1 ok
    cases unmarked
    obtain ⟨rfl, rfl⟩ := pure_ok.1 ok
    exact ⟨w₁, ran, rfl⟩
  · rintro ⟨w₁, ran, rfl⟩
    exact bind_ok.2 ⟨_, w, need_ok.2 ⟨hseq, rfl⟩, bind_ok.2 ⟨w, w, rfl, bind_ok.2 ⟨(), _, rfl,
      bind_ok.2 ⟨shown, w₁, ran, bind_ok.2 ⟨(), _, rfl, rfl⟩⟩⟩⟩⟩

variable {flags : LoopFlags} {w w' : World} {sequence : Expr} {otherwise : Stmt}
  {mark elseMark endMark : Int} {out : String}

theorem hadNone_ok :
    frame.hadNone flags w = .ok none w' ↔ w = w' ∧ if flags.hasElse then ∃ v,
      (w.store.dict frame.context).get? (.text "_iterated") = some v ∧ none = !holds w.store v
      else none = false := by
  unfold hadNone
  split
  · rw [bind_ok]
    constructor
    · rintro ⟨v, _, needed, ok⟩
      obtain ⟨got, rfl⟩ := need_ok.1 needed
      cases ok
      exact ⟨rfl, v, got, rfl⟩
    · rintro ⟨rfl, v, got, rfl⟩
      exact ⟨v, w, need_ok.2 ⟨got, rfl⟩, rfl⟩
  · rw [pure_ok]
    exact ⟨fun h => ⟨h.2, h.1.symm⟩, fun h => ⟨h.2.symm, h.1⟩⟩

/-- A loop up to the moment when its scope is left. -/
def untilLeft (calls : Calls) (frame : Frame) (key val : String) (sequence : Expr)
    (flags : LoopFlags) (body otherwise : Stmt) (mark elseMark : Int) : Eval String := do
  frame.located mark do
    ofAct (save frame.context)
    let seq ← value calls frame sequence
    ofAct (enter frame.context flags seq)
  let shown ← frame.located mark (looping frame key val (run calls frame body))
  let none ← frame.located elseMark (hadNone frame flags)
  let instead ← onlyIf none (run calls frame otherwise)
  return shown ++ instead

theorem run_loop_leave :
    frame.run calls (.loop key val sequence flags body otherwise mark elseMark endMark) w =
        .ok out w' ↔
      ∃ w₄ s, frame.untilLeft calls key val sequence flags body otherwise mark elseMark w =
          .ok out w₄ ∧
        frame.scope.leaveScope frame.context [key, val] w₄.store = .ok () s ∧
        { w₄ with store := s } = w' := by
  have whole : frame.run calls (.loop key val sequence flags body otherwise mark elseMark endMark) =
      frame.untilLeft calls key val sequence flags body otherwise mark elseMark >>= fun out =>
        frame.located endMark (ofAct (frame.scope.leaveScope frame.context [key, val])) >>=
          fun _ => pure out := by
    simp only [run, untilLeft, bind_assoc, pure_bind]
  rw [whole, bind_ok]
  constructor
  · rintro ⟨_, w₄, until_, ok⟩
    obtain ⟨_, _, left, ok⟩ := bind_ok.1 ok
    obtain ⟨s, hs, rfl⟩ := ofAct_ok.1 (located_ok.1 left)
    obtain ⟨rfl, rfl⟩ := pure_ok.1 ok
    exact ⟨w₄, s, until_, hs, rfl⟩
  · rintro ⟨w₄, s, until_, left, rfl⟩
    exact ⟨out, w₄, until_, bind_ok.2 ⟨(), _, located_ok.2 (ofAct_ok.2 ⟨s, left, rfl⟩), rfl⟩⟩

/-- What becomes of a loop: its variables are saved, its sequence is evaluated, its own variables are
set up, it goes through the sequence, and shows its other body if there was no round. -/
theorem untilLeft_ok :
    frame.untilLeft calls key val sequence flags body otherwise mark elseMark w = .ok out w' ↔
      ∃ s₁ v w₂ s₂ shown w₃ none instead, save frame.context w.store = .ok () s₁ ∧
      frame.value calls sequence { w with store := s₁ } = .ok v w₂ ∧ enter frame.context flags
      v w₂.store = .ok () s₂ ∧ frame.looping key val (frame.run calls body)
      { w₂ with store := s₂ } = .ok shown w₃ ∧ frame.hadNone flags w₃ = .ok none w₃ ∧ onlyIf none
      (frame.run calls otherwise) w₃ = .ok instead w' ∧ shown ++ instead = out := by
  constructor
  · intro ok
    obtain ⟨_, _, entered, ok⟩ := bind_ok.1 ok
    obtain ⟨_, _, saved, entered⟩ := bind_ok.1 (located_ok.1 entered)
    obtain ⟨s₁, hs₁, rfl⟩ := ofAct_ok.1 saved
    obtain ⟨v, w₂, valued, opened⟩ := bind_ok.1 entered
    obtain ⟨s₂, hs₂, rfl⟩ := ofAct_ok.1 opened
    obtain ⟨shown, w₃, looped, ok⟩ := bind_ok.1 ok
    obtain ⟨none, _, asked, ok⟩ := bind_ok.1 ok
    obtain ⟨rfl, -⟩ := hadNone_ok.1 (located_ok.1 asked)
    obtain ⟨instead, _, other, ok⟩ := bind_ok.1 ok
    obtain ⟨rfl, rfl⟩ := pure_ok.1 ok
    exact ⟨s₁, v, w₂, s₂, shown, w₃, none, instead, hs₁, valued, hs₂, located_ok.1 looped,
      located_ok.1 asked, other, rfl⟩
  · rintro ⟨s₁, v, w₂, s₂, shown, w₃, none, instead, saved, valued, entered, looped, asked, other,
      rfl⟩
    refine bind_ok.2 ⟨(), { w₂ with store := s₂ }, located_ok.2 ?start, bind_ok.2 ⟨shown, w₃,
      located_ok.2 looped, bind_ok.2 ⟨none, w₃, located_ok.2 asked, bind_ok.2 ⟨instead, _, other,
        rfl⟩⟩⟩⟩
    exact bind_ok.2 ⟨(), _, ofAct_ok.2 ⟨s₁, saved, rfl⟩,
      bind_ok.2 ⟨v, w₂, valued, ofAct_ok.2 ⟨s₂, entered, rfl⟩⟩⟩

theorem run_loop_iff {w₂ w₃ : World} {s₁ s₂ : Store} {v : Value}
    (saved : save frame.context w.store = .ok () s₁)
    (valued : frame.value calls sequence { w with store := s₁ } = .ok v w₂)
    (entered : enter frame.context flags v w₂.store = .ok () s₂)
    (looped : frame.looping key val (frame.run calls body) { w₂ with store := s₂ } = .ok shown w₃)
    (asked : frame.hadNone flags w₃ = .ok none w₃) :
    frame.run calls (.loop key val sequence flags body otherwise mark elseMark endMark) w = .ok out
      w' ↔ ∃ instead w₄ s₅, onlyIf none (frame.run calls otherwise) w₃ = .ok instead w₄ ∧
      frame.scope.leaveScope frame.context [key, val] w₄.store = .ok () s₅ ∧
      { w₄ with store := s₅ } = w' ∧ shown ++ instead = out := by
  rw [run_loop_leave]
  constructor
  · rintro ⟨w₄, s₅, until_, left, same⟩
    obtain ⟨_, _, _, _, _, _, _, instead, saved', valued', entered', looped', asked', other, all⟩ :=
      untilLeft_ok.1 until_
    cases saved.symm.trans saved'
    cases valued.symm.trans valued'
    cases entered.symm.trans entered'
    cases looped.symm.trans looped'
    cases asked.symm.trans asked'
    exact ⟨instead, w₄, s₅, other, left, same, all⟩
  · rintro ⟨instead, w₄, s₅, other, left, same, all⟩
    exact ⟨w₄, s₅, untilLeft_ok.2 ⟨s₁, v, w₂, s₂, shown, w₃, none, instead, saved, valued, entered,
      looped, asked, other, all⟩, left, same⟩

/-- What holds when the scope of a loop is left: `I` holds once the variables have been saved and is
kept within `S`, and once the loop has been entered `J` is kept within `T`. The list that is gone
through is new, and marking it is no change to what there was. -/
theorem untilLeft_yields {I J : Store → Prop} {S T : Store → Store → Prop} [IsPreorder Store T]
    {n : Nat} (valued : Respects (World.On S) (frame.value calls sequence))
    (hkey : ∀ v, Respects T (put frame.context key v))
    (hval : ∀ v, Respects T (put frame.context val v))
    (hbody : Respects (World.On T) (frame.run calls body))
    (hotherwise : Respects (World.On T) (frame.run calls otherwise))
    (save : ∀ {s}, save frame.context w.store = .ok () s → I s)
    (before : ∀ {s s'}, I s → S s s' → I s')
    (enter : ∀ {s v s'}, I s → enter frame.context flags v s = .ok () s' → J s' ∧
      n ≤ s.lists.size ∧ (s'.dict frame.context).get? (.text "_seq") = some (.list s.lists.size))
    (marked : ∀ {s q} change, J s → n ≤ q → J (s.mark q change))
    (during : ∀ {s s'}, J s → T s s' → J s')
    (ok : frame.untilLeft calls key val sequence flags body otherwise mark elseMark w = .ok out w') :
    J w'.store := by
  obtain ⟨s₁, v, w₂, s₂, shown, w₃, none, instead, saved, value, entered, looped, -, other, -⟩ :=
    untilLeft_ok.1 ok
  obtain ⟨inside, new, seq⟩ := enter (before (save saved) (valued.state value)) entered
  obtain ⟨w₃', ran, rfl⟩ := (looping_ok (w := { w₂ with store := s₂ }) seq).1 looped
  have through := (rounds_follows hkey hval hbody _).state ran
  have after := marked (· - 1) (during (marked (· + 1) inside new) through) new
  cases none with
  | true => exact during after (hotherwise.state other)
  | false =>
    obtain ⟨-, rfl⟩ := pure_ok.1 other
    exact after

variable (henv : frame.env.Steady) (hcalls : calls.Careful)

include henv hcalls

theorem loop_spared (hkey : free key = true) (hval : free val = true)
    (hbody : Respects (World.On (Store.Keeps flags.withLoop frame.context)) (run calls frame body))
    (hotherwise : Respects (World.On (Store.Keeps flags.withLoop frame.context)) (run calls frame
      otherwise)) :
    Respects (World.On (Store.Keeps own frame.context))
      (run calls frame (.loop key val sequence flags body otherwise mark elseMark endMark)) := by
  refine Follows.of_state fun w out w' ok hw => ?_
  obtain ⟨w₄, s, until_, left, rfl⟩ := run_loop_leave.1 ok
  have last : Loop.Inside flags.withLoop frame.context w.store.dicts.size w.store w₄.store := by
    refine untilLeft_yields (I := Loop.Inside false frame.context w.store.dicts.size w.store)
      ((bounded_grows henv hcalls).value sequence) (put_keeps hkey) (put_keeps hval) hbody
      hotherwise (.of_save hw) (fun h grown => h.spared (h.holds.spared (grown h.holds)))
      (fun h entered => ?_) (fun change h new => h.mark new change)
      (fun h kept => h.spared (kept h.holds)) until_
    obtain ⟨_, again, opened⟩ := enter_ok flags _ h.holds.there h.parent
    cases again.symm.trans entered
    exact ⟨h.enter opened, h.agree.listsSize, opened.seq⟩
  exact last.leave left

/-- **Tame code leaves everything alone but the variables at hand**, and of those `loop` and
`_parent`. -/
theorem run_keeps {code : Stmt} (hcode : code.tame own = true) :
    Respects (World.On (Store.Keeps own frame.context)) (run calls frame code) := by
  refine run_follows (Store.Keeps · frame.context) (fun own code => code.tame own = true)
    (bounded_keeps henv hcalls) Bool.and_eq_true_iff.1 (fun h v => put_keeps h v) (fun h => ?_)
    Bool.and_eq_true_iff.1 (fun h body_ih otherwise_ih => ?_) endRound_keeps own hcode
  · obtain ⟨hname, hbody⟩ := Bool.and_eq_true_iff.1 h
    exact ⟨hbody, put_keeps hname⟩
  · obtain ⟨h, hotherwise⟩ := Bool.and_eq_true_iff.1 h
    obtain ⟨htargets, hbody⟩ := Bool.and_eq_true_iff.1 h
    obtain ⟨hkey, hval⟩ := Bool.and_eq_true_iff.1 htargets
    refine loop_spared henv hcalls hkey hval (body_ih _ hbody) ?_
    exact (otherwise_ih _ hotherwise).mono fun _ _ h hw => (h hw).less

end Frame

/-! ## Calls -/

namespace Render

variable {env : Environment} {root : String} {calls : Calls} (henv : env.Steady)
  (hcalls : calls.Careful)

include henv hcalls

theorem runBlock_grows (context : Nat) (blocks : Blocks) {b : Block} (hb : b.tame = true) :
    Respects (World.On (Store.Grows context)) (runBlock env root calls context blocks b) := by
  cases b with
  | foreign type => exact .of_fails (fails_fail _)
  | code owner body =>
    refine Follows.of_state fun w out w' ok hw => ?_
    obtain ⟨copy, w₁, copied, ran⟩ := bind_ok.1 ok
    cases copied
    have keeps := @Frame.run_keeps calls (env.frame root owner w.store.dicts.size blocks) false henv
      hcalls body hb
    refine (keeps.state ran ⟨?_, ?_⟩).extends
    · exact Array.size_push _ ▸ Nat.lt_succ_self _
    · exact Store.dict_pushDict_self.symm ▸ hw.proper

omit henv hcalls in
/-- **Careful calls leave alone what they should**, however deep they go. -/
theorem carefulAt_careful (hcallables : ∀ c, env.registry.Offers c → c.Steady) (root : String)
    (depth : Nat) : (carefulAt env root depth).Careful := by
  have henv : env.barred.Steady := env.barred_steady hcallables
  induction depth with
  | zero => exact noCalls_bounded
  | succ depth ih =>
    refine ⟨fun t context blocks => Follows.of_state fun w out w' ok there => ?_,
      fun t name context blocks useBlocks => Follows.of_state fun w out w' ok => ?_,
      displayParentBlock_follows henv.grows ih,
      displayParent_follows henv.grows ih Store.Grows.keeps fun h hw => h hw.there⟩
    · obtain ⟨fit, shown⟩ := onlyWhere_ok.1 ok
      obtain ⟨ht, proper⟩ := Bool.and_eq_true_iff.1 fit
      exact (display_follows ih (Frame.run_keeps henv ih ht)).state shown ⟨there, proper⟩
    · obtain ⟨fit, shown⟩ := onlyWhere_ok.1 ok
      refine (displayBlock_follows henv.grows ih fun b found => ?_).state shown
      exact runBlock_grows henv ih context blocks ((Option.all_eq_true _ _).1 fit b found)

end Render
end Stencil
