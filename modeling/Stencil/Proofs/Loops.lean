import Stencil.Proofs.ForLoop

/-!
# What a loop does

A loop with a variable `loop` goes through the pairs of its sequence in order. It sets its targets to
each pair, asks its condition, and runs its body for the pairs that are accepted; meanwhile `loop`
gives the number of the round. If no pair was accepted, it shows its other body.

A body is followed as long as it runs carefully, and as far: what is said of a round does not depend
on whether the rounds after it succeed.
-/

namespace Stencil

open Render Loop Stencil.Frame
open Step (Follows Respects Gives Sim bind_ok pure_ok)
open Store (Extends)

namespace ForLoop

variable (f : ForLoop)

/-! ## Rounds -/

/-- Sets the targets to a pair, and asks whether it is accepted. -/
def accepts (calls : Calls) (frame : Frame) (pair : Value × Value) : Eval Bool := do
  Eval.ofAct (put frame.context f.key pair.1)
  Eval.ofAct (put frame.context f.val pair.2)
  match f.condition with
  | none => return true
  | some e => truth (← frame.value calls e)

/-- A store in which the account, in the dict `l`, is that of the `i`-th round, and in which it is
noted that there was a round. -/
def counted (c l : Nat) (parent : Value) (count i : Nat) (s : Store) : Store :=
  (if f.otherwise.isSome then s.assign c "_iterated" (.bool true) else s).fill l
    (account f.condition.isSome parent count i)

/-- `Passes f calls frame l parent count i pairs w shown n w'`: going through the pairs from the world
`w`, when `i` have been accepted before, shows `shown`, leads to `w'`, and then `n` have been
accepted. -/
inductive Passes (calls : Calls) (frame : Frame) (l : Nat) (parent : Value) (count : Nat) :
    Nat → List (Value × Value) → World → String → Nat → World → Prop
  | done {i w} : Passes calls frame l parent count i [] w "" i w
  | taken {i n : Nat} {pair : Value × Value} {rest : List (Value × Value)} {w w₁ w₂ w₃ : World}
      {shown more : String} (accepted : f.accepts calls frame pair w = .ok true w₁)
      (ran : frame.run calls f.body w₁ = .ok shown w₂)
      (after : Passes calls frame l parent count (i + 1) rest
        { w₂ with store := f.counted frame.context l parent count (i + 1) w₂.store } more n w₃) :
      Passes calls frame l parent count i (pair :: rest) w (shown ++ more) n w₃
  | refused {i n pair rest w w₁ w₂ shown} (refused : f.accepts calls frame pair w = .ok false w₁)
    (after : Passes calls frame l parent count i rest w₁ shown n w₂) :
    Passes calls frame l parent count i (pair :: rest) w shown n w₂

end ForLoop

variable {v : Value} {w w' : World} {es : Entries} {name : String}

/-! ## What holds during a loop -/

/-- During a loop, its account is in the dict `l`, and the variable `loop` leads there. -/
structure Loop.Counting (c l : Nat) (es : Entries) (s : Store) : Prop where
  holds : s.Holds c
  apart : l ≠ c
  there : l < s.dicts.size
  loop : (s.dict c).get? (.text "loop") = some (.dict l)
  entries : s.dict l = es

variable {c l : Nat} {s : Store} {frame : Frame}

theorem Loop.Counting.spared {s' : Store} (h : Counting c l es s) (hs : s.Spared false c s') :
    Counting c l es s' where
  holds := hs.holds
  apart := h.apart
  there := Nat.lt_of_lt_of_le h.there hs.agree.dictsSize
  loop := (hs.same "loop" rfl).trans h.loop
  entries := by
    refine (hs.agree.dict h.there ?_).trans h.entries
    rintro (is | ⟨never, -⟩)
    · exact h.apart is
    · cases never

namespace ForLoop

variable (f : ForLoop)

/-- What holds between two rounds, when `i` pairs have been accepted. -/
structure Between (c l : Nat) (parent : Value) (count i : Nat) (s : Store) : Prop where
  counting : Loop.Counting c l (account f.condition.isSome parent count i) s
  iterated : f.otherwise.isSome = true →
    (s.dict c).get? (.text "_iterated") = some (.bool (i != 0))

variable {f} {c l : Nat} {parent : Value} {count i : Nat} {s : Store}

theorem between_counted
    (h : Loop.Counting c l (account f.condition.isSome parent count i) s) :
    f.Between c l parent count (i + 1) (f.counted c l parent count (i + 1) s) := by
  let s₁ := if f.otherwise.isSome then s.assign c "_iterated" (.bool true) else s
  have spared : s.Spared false c s₁ := by
    simp only [s₁]
    split
    · exact h.holds.assign rfl _
    · exact h.holds.refl
  have before := h.spared spared
  have vars : (f.counted c l parent count (i + 1) s).dict c = s₁.dict c :=
    Store.dict_fill_of_ne h.apart.symm
  refine ⟨⟨⟨?_, ?_⟩, h.apart, ?_, ?_, Store.dict_fill_self before.there⟩, fun hother => ?_⟩
  · exact Store.size_fill.symm ▸ before.holds.there
  · rw [vars]
    exact before.holds.proper
  · exact Store.size_fill.symm ▸ before.there
  · rw [vars]
    exact before.loop
  · rw [vars]
    simp only [s₁, hother, if_true]
    rw [Store.dict_assign_self h.holds.there, Entries.get?_assign_self]
    rfl

theorem pass_ok {calls : Calls} {frame : Frame} {pair : Value × Value} {w w₁ w₂ w' : World}
    {shown : String} (putKey : Eval.ofAct (put frame.context f.key pair.1) w = .ok () w₁)
    (putVal : Eval.ofAct (put frame.context f.val pair.2) w₁ = .ok () w₂)
    (ran : frame.run calls f.pass w₂ = .ok shown w') :
    (∃ w₃ w₄ s₅, f.accepts calls frame pair w = .ok true w₃ ∧
      frame.run calls f.body w₃ = .ok shown w₄ ∧
      endRound frame.context f.flags w₄.store = .ok () s₅ ∧ { w₄ with store := s₅ } = w') ∨
    (f.accepts calls frame pair w = .ok false w' ∧ shown = "") := by
  have asked : ∀ {b : Bool} {w₃ : World}, (match f.condition with
      | none => pure true
      | some e => do truth (← frame.value calls e) : Eval Bool) w₂ = .ok b w₃ →
        f.accepts calls frame pair w = .ok b w₃ :=
    fun h => bind_ok.2 ⟨(), w₁, putKey, bind_ok.2 ⟨(), w₂, putVal, h⟩⟩
  -- a round is the body, which shows something, and the end of the round, which does not
  have round : ∀ {w₃ : World}, frame.run calls f.round w₃ = .ok shown w' →
      ∃ w₄ s₅, frame.run calls f.body w₃ = .ok shown w₄ ∧
        endRound frame.context f.flags w₄.store = .ok () s₅ ∧ { w₄ with store := s₅ } = w' := by
    intro w₃ ran
    obtain ⟨out, w₄, body, ran⟩ := bind_ok.1 ran
    obtain ⟨_, _, ended, ran⟩ := bind_ok.1 ran
    obtain ⟨rfl, rfl⟩ := pure_ok.1 ran
    obtain ⟨_, _, counted, ended⟩ := bind_ok.1 ended
    obtain ⟨_, _, counted, nothing⟩ := bind_ok.1 (located_ok.1 counted)
    obtain ⟨s₅, hs₅, rfl⟩ := Eval.ofAct_ok.1 counted
    obtain ⟨rfl, rfl⟩ := pure_ok.1 nothing
    cases ended
    rw [String.append_empty, String.append_empty]
    exact ⟨w₄, s₅, body, hs₅, rfl⟩
  unfold pass at ran
  cases hcondition : f.condition with
  | none =>
    rw [hcondition] at ran asked
    obtain ⟨w₄, s₅, done⟩ := round ran
    exact Or.inl ⟨w₂, w₄, s₅, asked rfl, done⟩
  | some e =>
    rw [hcondition] at ran asked
    obtain ⟨b, w₃, judged, ran⟩ := bind_ok.1 ran
    have judged := asked (located_ok.1 judged)
    cases b with
    | true =>
      obtain ⟨w₄, s₅, done⟩ := round ran
      exact Or.inl ⟨w₃, w₄, s₅, judged, done⟩
    | false =>
      obtain ⟨rfl, rfl⟩ := pure_ok.1 ran
      exact Or.inr ⟨judged, rfl⟩

/-- One more round: the pairs before it have been gone through, and its own pass has run. -/
theorem rounds_concat {calls : Calls} {frame : Frame} {pair : Value × Value} {code : Stmt}
    {items : List Value} {w w₁ w₂ w₃ w₄ : World} {shown out : String}
    (before : frame.rounds f.key f.val (frame.run calls code) items w = .ok shown w₁)
    (putKey : Eval.ofAct (put frame.context f.key pair.1) w₁ = .ok () w₂)
    (putVal : Eval.ofAct (put frame.context f.val pair.2) w₂ = .ok () w₃)
    (ran : frame.run calls code w₃ = .ok out w₄) :
    frame.rounds f.key f.val (frame.run calls code) (items ++ [.tuple [pair.1, pair.2]]) w =
      .ok (shown ++ out) w₄ := by
  induction items generalizing w shown with
  | nil =>
    obtain ⟨rfl, rfl⟩ := pure_ok.1 before
    refine bind_ok.2 ⟨(), w₂, putKey, bind_ok.2 ⟨(), w₃, putVal, bind_ok.2 ⟨out, w₄, ran, ?_⟩⟩⟩
    refine bind_ok.2 ⟨"", w₄, rfl, pure_ok.2 ⟨?_, rfl⟩⟩
    rw [String.append_empty, String.empty_append]
  | cons first rest ih =>
    obtain ⟨_, _, firstKey, before⟩ := bind_ok.1 before
    obtain ⟨_, _, firstVal, before⟩ := bind_ok.1 before
    obtain ⟨_, _, ranFirst, before⟩ := bind_ok.1 before
    obtain ⟨_, _, ranRest, before⟩ := bind_ok.1 before
    obtain ⟨rfl, rfl⟩ := pure_ok.1 before
    refine bind_ok.2 ⟨(), _, firstKey, bind_ok.2 ⟨(), _, firstVal, bind_ok.2 ⟨_, _, ranFirst, ?_⟩⟩⟩
    exact bind_ok.2 ⟨_, w₄, ih ranRest, pure_ok.2 ⟨(String.append_assoc ..).symm, rfl⟩⟩

/-- When a pair is accepted, its pass is its body, which shows something, and the end of the round. -/
theorem pass_of_accepted {calls : Calls} {frame : Frame} {pair : Value × Value} {w w₃ w₄ : World}
    {s₅ : Store} {shown : String} (accepted : f.accepts calls frame pair w = .ok true w₃)
    (body : frame.run calls f.body w₃ = .ok shown w₄)
    (ended : endRound frame.context f.flags w₄.store = .ok () s₅) :
    ∃ w₁ w₂, Eval.ofAct (put frame.context f.key pair.1) w = .ok () w₁ ∧
      Eval.ofAct (put frame.context f.val pair.2) w₁ = .ok () w₂ ∧
      frame.run calls f.pass w₂ = .ok shown { w₄ with store := s₅ } := by
  obtain ⟨_, w₁, putKey, accepted⟩ := bind_ok.1 accepted
  obtain ⟨_, w₂, putVal, accepted⟩ := bind_ok.1 accepted
  refine ⟨w₁, w₂, putKey, putVal, ?_⟩
  have counted : frame.run calls (.seq (.round f.flags f.roundMark) .skip) w₄ =
      .ok "" { w₄ with store := s₅ } :=
    bind_ok.2 ⟨"", _, located_ok.2 (bind_ok.2 ⟨(), _, Eval.ofAct_ok.2 ⟨s₅, ended, rfl⟩, rfl⟩), rfl⟩
  have round : frame.run calls f.round w₃ = .ok shown { w₄ with store := s₅ } :=
    bind_ok.2 ⟨shown, w₄, body, bind_ok.2 ⟨"", _, counted, pure_ok.2 ⟨String.append_empty, rfl⟩⟩⟩
  unfold pass
  cases hcondition : f.condition with
  | none =>
    rw [hcondition] at accepted
    obtain ⟨-, rfl⟩ := pure_ok.1 accepted
    exact round
  | some e =>
    rw [hcondition] at accepted
    exact bind_ok.2 ⟨true, w₃, located_ok.2 accepted, round⟩

section Careful

variable {calls : Calls} {frame : Frame} (henv : frame.env.Steady) (hcalls : calls.Careful)
  (hf : f.fair = true)

include henv hcalls hf

theorem accepts_keeps (pair : Value × Value) :
    Respects (World.On (Store.Keeps false frame.context)) (f.accepts calls frame pair) := by
  obtain ⟨-, hkey, hval, -⟩ := fair_iff.1 hf
  refine (Eval.follows_ofAct (put_keeps hkey _)).bind fun _ =>
    (Eval.follows_ofAct (put_keeps hval _)).bind fun _ => ?_
  split
  · exact .pure _
  · exact ((bounded_keeps henv hcalls false).value _).bind fun _ =>
      Follows.get.bind fun _ => .pure _

/-- A pair that is refused leaves no trace in the variable that tells whether there was a round. -/
theorem iterated_of_refused {pair : Value × Value} {w w' : World}
    (hw : w.store.Holds frame.context) (hotherwise : f.otherwise.isSome = true)
    (refused : f.accepts calls frame pair w = .ok false w') :
    (w'.store.dict frame.context).get? (.text "_iterated") =
      (w.store.dict frame.context).get? (.text "_iterated") := by
  obtain ⟨-, hkey, hval, others⟩ := fair_iff.1 hf
  obtain ⟨_, _, put, refused⟩ := bind_ok.1 refused
  obtain rfl := Eval.put_ok.1 put
  obtain ⟨_, _, put', refused⟩ := bind_ok.1 refused
  obtain rfl := Eval.put_ok.1 put'
  have hw₁ := (@Store.Holds.assign false _ _ hw _ hkey pair.1).holds
  have hw₂ := (@Store.Holds.assign false _ _ hw₁ _ hval pair.2).holds
  cases hcondition : f.condition with
  | none =>
    rw [hcondition] at refused
    cases refused
  | some e =>
    rw [hcondition] at refused others
    obtain ⟨otherKey, otherVal⟩ := others rfl hotherwise
    obtain ⟨v, w₂, valued, asked⟩ := bind_ok.1 refused
    obtain ⟨-, rfl⟩ := pure_ok.1 asked
    have grown := ((bounded_grows henv hcalls).value e).state valued hw₂
    rw [grown.dict hw₂.there id, Store.dict_assign_self hw₁.there, Store.dict_assign_self hw.there,
      Entries.get?_assign_of_ne otherVal.symm, Entries.get?_assign_of_ne otherKey.symm]

/-- **Rounds that run carefully are passes**, one after the other. -/
theorem passes_of_rounds {pairs : List (Value × Value)} {w w' : World} {shown : String}
    (hw : f.Between frame.context l parent count i w.store)
    (ran : frame.rounds f.key f.val (frame.run calls f.pass)
      (pairs.map fun p => .tuple [p.1, p.2]) w = .ok shown w') :
    ∃ n, f.Passes calls frame l parent count i pairs w shown n w' ∧
      f.Between frame.context l parent count n w'.store := by
  obtain ⟨hbody, -⟩ := fair_iff.1 hf
  -- the account between two passes is the invariant; only an accepted pair moves it on
  induction pairs generalizing i w shown with
  | nil =>
    obtain ⟨rfl, rfl⟩ := pure_ok.1 ran
    exact ⟨i, .done, hw⟩
  | cons pair rest ih =>
    obtain ⟨_, w₁, putKey, ran⟩ := bind_ok.1 ran
    obtain ⟨_, w₂, putVal, ran⟩ := bind_ok.1 ran
    obtain ⟨first, w₃, ranFirst, ran⟩ := bind_ok.1 ran
    obtain ⟨more, w₄, ranRest, ran⟩ := bind_ok.1 ran
    obtain ⟨rfl, rfl⟩ := pure_ok.1 ran
    rcases pass_ok putKey putVal ranFirst with ⟨w₅, w₆, s₇, accepted, body, ended, rfl⟩ | ⟨refused, rfl⟩
    · have counting := hw.counting.spared
        ((accepts_keeps henv hcalls hf pair).state accepted hw.counting.holds)
      have counting := counting.spared
        ((run_keeps henv hcalls hbody).state body counting.holds)
      cases (endRound_ok rfl counting.holds.there counting.apart.symm counting.there counting.loop
        counting.entries).symm.trans ended
      obtain ⟨n, passes, after⟩ := ih (between_counted counting) ranRest
      exact ⟨n, .taken accepted body passes, after⟩
    · have spared := (accepts_keeps henv hcalls hf pair).state refused hw.counting.holds
      have between : f.Between frame.context l parent count i w₃.store :=
        ⟨hw.counting.spared spared, fun hother => by
          rw [iterated_of_refused henv hcalls hf hw.counting.holds hother refused]
          exact hw.iterated hother⟩
      obtain ⟨n, passes, after⟩ := ih between ranRest
      rw [String.empty_append]
      exact ⟨n, .refused refused passes, after⟩

/-- **A round fails only where its condition or its body does**: what else is done in it, the account
for the next round, never fails. -/
theorem rounds_of_body {pairs : List (Value × Value)} {pair : Value × Value} {w w₁ w₂ w₃ : World}
    {shown out : String} (hw : f.Between frame.context l parent count i w₁.store)
    (before : frame.rounds f.key f.val (frame.run calls f.pass)
      (pairs.map fun p => .tuple [p.1, p.2]) w = .ok shown w₁)
    (accepted : f.accepts calls frame pair w₁ = .ok true w₂)
    (body : frame.run calls f.body w₂ = .ok out w₃) :
    ∃ w₄, frame.rounds f.key f.val (frame.run calls f.pass)
      ((pairs ++ [pair]).map fun p => .tuple [p.1, p.2]) w = .ok (shown ++ out) w₄ := by
  obtain ⟨hbody, -⟩ := fair_iff.1 hf
  have counting := hw.counting.spared
    ((accepts_keeps henv hcalls hf pair).state accepted hw.counting.holds)
  have counting := counting.spared ((run_keeps henv hcalls hbody).state body counting.holds)
  have ended : endRound frame.context f.flags w₃.store = .ok () _ :=
    endRound_ok rfl counting.holds.there counting.apart.symm counting.there counting.loop
      counting.entries
  obtain ⟨_, _, putKey, putVal, ran⟩ := pass_of_accepted accepted body ended
  rw [List.map_append]
  exact ⟨_, rounds_concat before putKey putVal ran⟩

end Careful

end ForLoop

/-! ## Points of a body -/

namespace Frame

def barred (frame : Frame) : Frame := { frame with env := frame.env.barred }

/-- `Reaches depth frame code w frame' w'`: running the code from the world `w` carefully, a point of it
is reached in the world `w'`. Nested loops are not entered. Blocks are; at a point of a block the
frame is another. -/
inductive Reaches : Nat → Frame → Stmt → World → Frame → World → Prop
  | here {depth frame code w} : Reaches depth frame code w frame w
  | first {depth frame frame' first second w w'} (reached : Reaches depth frame first w frame' w') :
    Reaches depth frame (.seq first second) w frame' w'
  | second {depth frame frame' first second w w₁ w' shown}
    (ran : frame.barred.run (carefulAt frame.env frame.root depth) first w = .ok shown w₁)
    (reached : Reaches depth frame second w₁ frame' w') :
    Reaches depth frame (.seq first second) w frame' w'
  | captured {depth frame frame' name body mark w w'}
    (reached : Reaches depth frame body w frame' w') :
    Reaches depth frame (.capture name body mark) w frame' w'
  | branched {depth : Nat} {frame frame' : Frame} {condition : Expr} {yes no : Stmt} {mark : Int}
      {w w₁ w' : World} {v : Value}
      (valued : frame.barred.value (carefulAt frame.env frame.root depth) condition w =
        .ok v w₁)
      (reached : Reaches depth frame (if w₁.store.truth v then yes else no) w₁ frame' w') :
      Reaches depth frame (.branch condition yes no mark) w frame' w'
  | block {depth copy : Nat} {frame frame' : Frame} {name : String} {mark : Int} {owner : Template}
      {body : Stmt} {w w₁ w' : World}
      (found : found? frame.template name frame.blocks true = some (.code owner body))
      (tame : body.tame false = true) (copied : copyOf frame.context w = .ok copy w₁)
      (reached : Reaches depth (frame.env.frame frame.root owner copy frame.blocks) body w₁
        frame' w') :
      Reaches (depth + 1) frame (.block name mark) w frame' w'

/-- Wherever an expression asks for an item of `loop`, it gets the value that is given for it. -/
def Sees (frame : Frame) (w : World) (numbers : List (String × Value)) : Prop :=
  ∀ name v, (name, v) ∈ numbers → ∀ calls access lenient line w', access ≠ .method →
    w.store.Extends w'.store →
    frame.value calls (.attr (.reading "loop" lenient line) (.constant (.text name)) [] access false
      lenient line) w' = .ok v w'

end Frame

open Loop (Counting)

theorem Scope.getAttribute_item (scope : Scope) (h : (s.dict l).get? (.text name) = some v)
    {access : Node.Access} (hmethod : access ≠ .method) (lenient : Bool) (line : Int) :
    scope.getAttribute (.dict l) (.text name) [] access false lenient line s = .ok v s := by
  have item : Attribute.item? s (.dict l) (.text name) = some v := by
    change ((s.dict l).get? (.text name)).or _ = _
    rw [h]
    rfl
  have searched : Attribute.search scope (.dict l) (.text name) [] access s = .ok (.value v) s := by
    refine bind_ok.2 ⟨name, s, Act.print_text name s, bind_ok.2 ⟨s, s, rfl, ?_⟩⟩
    rw [if_neg (by simpa using hmethod), item]
    rfl
  refine bind_ok.2 ⟨.value v, s, searched, ?_⟩
  unfold Scope.mode
  cases lenient || !scope.options.strictVariables <;> rfl

theorem Scope.getVariable_ok (scope : Scope) (h : (s.dict c).get? (.text name) = some v)
    (lenient : Bool) (line : Int) : scope.getVariable c name lenient line s = .ok v s := by
  refine bind_ok.2 ⟨s.dict c, s, rfl, ?_⟩
  rw [h]
  rfl

theorem Loop.Counting.sees {conditional : Bool} {parent : Value} {count i : Nat}
    (h : Counting frame.context l (account conditional parent count i) w.store) :
    frame.Sees w (numbers conditional count i) := by
  intro name v listed calls access lenient line w' hmethod grown
  have hloop : (w'.store.dict frame.context).get? (.text "loop") = some (.dict l) := by
    rw [grown.dict h.holds.there id, h.loop]
  have hitem : (w'.store.dict l).get? (.text name) = some v := by
    rw [grown.dict h.there id, h.entries, get?_account listed]
  rw [value]
  exact bind_ok.2 ⟨.dict l, w', Eval.ofAct_ok.2 ⟨_, frame.scope.getVariable_ok hloop lenient line, rfl⟩,
    bind_ok.2 ⟨.text name, w', rfl, bind_ok.2 ⟨[], w', rfl,
      Eval.ofAct_ok.2 ⟨_, frame.scope.getAttribute_item hitem hmethod lenient line, rfl⟩⟩⟩⟩

theorem Loop.Counting.copy {copy : Nat} (h : Counting c l es w.store)
    (copied : copyOf c w = .ok copy w') : Counting copy l es w'.store := by
  cases copied
  have grown : w.store.Extends
      { w.store with dicts := w.store.dicts.push (.ready (w.store.dict c)) } :=
    (Store.Agree.refl _).pushDict _
  refine ⟨⟨?_, ?_⟩, Nat.ne_of_lt h.there, Nat.lt_of_lt_of_le h.there grown.dictsSize, ?_, ?_⟩
  · exact Array.size_push _ ▸ Nat.lt_succ_self _
  · exact Store.dict_pushDict_self.symm ▸ h.holds.proper
  · exact Store.dict_pushDict_self.symm ▸ h.loop
  · exact (grown.dict h.there id).trans h.entries

/-- What holds during a loop holds at every point of its body. -/
theorem Frame.Reaches.counting {depth : Nat} {frame' : Frame} {code : Stmt}
    (reached : Reaches depth frame code w frame' w')
    (hcallables : ∀ c, frame.env.registry.Offers c → c.Steady) (hcode : code.tame false = true)
    (h : Counting frame.context l es w.store) : Counting frame'.context l es w'.store := by
  induction reached with
  | here => exact h
  | first _ ih => exact ih hcallables (Bool.and_eq_true_iff.1 hcode).1 h
  | @second depth frame _ _ _ _ _ _ _ ran _ ih =>
    obtain ⟨hfirst, hsecond⟩ := Bool.and_eq_true_iff.1 hcode
    have careful := carefulAt_careful hcallables frame.root depth
    have steady : frame.barred.env.Steady := frame.env.barred_steady hcallables
    exact ih hcallables hsecond (h.spared ((run_keeps steady careful hfirst).state ran h.holds))
  | captured _ ih => exact ih hcallables (Bool.and_eq_true_iff.1 hcode).2 h
  | @branched depth frame _ _ _ _ _ _ _ _ _ valued _ ih =>
    obtain ⟨hyes, hno⟩ := Bool.and_eq_true_iff.1 hcode
    have careful := carefulAt_careful hcallables frame.root depth
    have steady : frame.barred.env.Steady := frame.env.barred_steady hcallables
    have grown := ((bounded_grows steady careful).value _).state valued h.holds
    refine ih hcallables ?_ (h.spared (h.holds.spared grown))
    split
    · exact hyes
    · exact hno
  | block _ tame copied _ ih => exact ih hcallables tame (h.copy copied)

/-! ## Whole loops -/

namespace Frame

variable {frame : Frame} {depth : Nat} (hcallables : ∀ c, frame.env.registry.Offers c → c.Steady)

include hcallables

theorem value_careful (e : Expr) :
    Sim Eq (fun _ => False) (frame.barred.value (carefulAt frame.env frame.root depth) e)
      (frame.value (callsAt frame.env frame.root depth) e) :=
  have henv := parallel_barred hcallables
  value_sim frame.barred henv
    ((carefulAt_alike hcallables frame.root depth).match _ frame.env frame.root).toMatchBlocks
    e

theorem run_careful (code : Stmt) :
    Sim Eq (fun _ => False) (frame.barred.run (carefulAt frame.env frame.root depth) code)
      (frame.run (callsAt frame.env frame.root depth) code) :=
  run_sim frame.barred (parallel_barred hcallables)
    ((carefulAt_alike hcallables frame.root depth).match _ frame.env frame.root) code

theorem rounds_careful (key val : String) (code : Stmt) (pairs : List Value) :
    Sim Eq (fun _ => False)
      (frame.barred.rounds key val
        (frame.barred.run (carefulAt frame.env frame.root depth) code) pairs)
      (frame.rounds key val (frame.run (callsAt frame.env frame.root depth) code) pairs) :=
  rounds_sim frame.barred (parallel_barred hcallables) key val (run_careful hcallables code)
    pairs

end Frame

namespace ForLoop

variable {f : ForLoop} {frame : Frame} {depth : Nat}
  (hcallables : ∀ c, frame.env.registry.Offers c → c.Steady)

include hcallables

theorem accepts_careful (pair : Value × Value) :
    Sim Eq (fun _ => False)
      (f.accepts (carefulAt frame.env frame.root depth) frame.barred pair)
      (f.accepts (callsAt frame.env frame.root depth) frame pair) := by
  have henv := parallel_barred hcallables
  refine (henv.act _).bind fun _ => (henv.act _).bind fun _ => ?_
  split
  · exact .pure _
  · exact (value_careful hcallables _).bind fun _ => truth_sim frame.barred henv _

variable {l n count : Nat} {parent : Value}

theorem Passes.of_careful {i : Nat} {pairs : List (Value × Value)} {w w' : World} {shown : String}
    (h : f.Passes (carefulAt frame.env frame.root depth) frame.barred l parent count i pairs
      w shown n w') :
    f.Passes (callsAt frame.env frame.root depth) frame l parent count i pairs w shown n
      w' := by
  induction h with
  | done => exact .done
  | taken accepted ran _ ih =>
    exact .taken ((accepts_careful hcallables _).same accepted)
      ((run_careful hcallables _).same ran) ih
  | refused refused _ ih => exact .refused ((accepts_careful hcallables _).same refused) ih

omit hcallables

/-- The first round begins in the world `w'`, when the sequence has come to `v` in the world `w`: the
variables of the loop have been set up, and its list, which is new, is marked. -/
def Begins (f : ForLoop) (frame : Frame) (v : Value) (w w' : World) : Prop :=
  ∃ s, enter frame.context f.flags v w.store = .ok () s ∧
    { w with store := s.mark w.store.lists.size (· + 1) } = w'

/-- What is shown after the rounds, when `n` pairs have been accepted: the other body, if there is one
and there was no round. -/
def Instead (f : ForLoop) (calls : Calls) (frame : Frame) (n : Nat) (w : World) (instead : String)
    (w' : World) : Prop :=
  match f.otherwise, n with
  | some other, 0 => frame.run calls other w = .ok instead w'
  | _, _ => instead = "" ∧ w = w'

theorem between_start {c : Nat} {v : Value} {s s' : Store} (hs : s.Holds c)
    (h : Loop.Entered s c f.flags v parent s') (q : Nat) (change : Nat → Nat) :
    f.Between c s.dicts.size parent (s.pairs v).length 0 (s'.mark q change) := by
  obtain ⟨there, entries⟩ := h.account rfl
  refine ⟨⟨⟨?_, ?_⟩, Nat.ne_of_gt hs.there, there, ?_, entries⟩, fun hother => ?_⟩
  · exact Nat.lt_of_lt_of_le hs.there h.agree.dictsSize
  · exact h.vars.symm ▸ proper_opening hs.proper
  · exact h.vars.symm ▸ get?_opening_loop rfl
  · exact h.vars.symm ▸ get?_opening_iterated hother

theorem hadNone_of_between {q : Nat} {change : Nat → Nat} {w : World}
    (h : f.Between frame.context l parent count n w.store) :
    let w' : World := { w with store := w.store.mark q change }
    frame.hadNone f.flags w' = .ok (f.otherwise.isSome && n == 0) w' := by
  refine hadNone_ok.2 ⟨rfl, ?_⟩
  unfold flags
  cases hother : f.otherwise with
  | none => rfl
  | some other =>
    refine ⟨.bool (n != 0), h.iterated (by rw [hother]; rfl), ?_⟩
    cases n <;> rfl

theorem instead_iff {calls : Calls} {w w' : World} {instead : String} :
    onlyIf (f.otherwise.isSome && n == 0) (frame.run calls (f.otherwise.getD .skip)) w =
      .ok instead w' ↔ f.Instead calls frame n w instead w' := by
  have nothing : (pure "" : Eval String) w = .ok instead w' ↔ instead = "" ∧ w = w' := by
    rw [pure_ok, eq_comm]
  unfold Instead
  cases f.otherwise with
  | none => exact nothing
  | some other =>
    cases n with
    | zero => exact Iff.rfl
    | succ n => exact nothing

/-- **A loop goes through its pairs in order, and its account is right at every point.**

Let `code` be the program of a loop whose body mentions `loop`. It is that of a `ForLoop` with the
same parts. If this is fair, let its sequence come to `v`, where the variables are proper and those
from before the loop are saved. Then the first round begins. When the rounds for the pairs `done`
have run carefully, these were the passes that the condition accepted, `i` of them, and
* when the next pair is accepted, `loop` has the numbers of the `i`-th round at every point of the
  body that is then reached, and if the body runs to its end, so does the round;
* when there is no next pair, the loop shows what its rounds showed, then its other body exactly if
  `i` is zero, and is left. -/
theorem goes_through {escape : Node → Node}
    (hescape : escape = id ∨ ∃ strategy, escape = Autoescape.apply strategy) {line mark after : Int}
    {key value sequence condition body otherwise : Node} (hnames : body.names "loop" = true)
    {code : Stmt}
    (hcode : (Program.partOf (escape
      (Parse.loopNode line key value sequence condition body otherwise))).stmt mark =
        some (code, after)) :
    ∃ f : ForLoop, f.code = code ∧
      f.MadeOf line (escape key) (escape value) (escape sequence) (escape condition) (escape body)
        (escape otherwise) ∧
    (f.fair = true → ∀ (depth : Nat) (frame : Frame),
      (∀ c, frame.env.registry.Offers c → c.Steady) → ∀ (w w₁ : World) (v parent : Value),
      (do
        Eval.ofAct (Loop.save frame.context)
        frame.value (Render.callsAt frame.env frame.root depth) f.sequence) w = .ok v w₁ →
      w₁.store.Holds frame.context →
      (w₁.store.dict frame.context).get? (.text "_parent") = some parent →
      ∃ w₂, f.Begins frame v w₁ w₂ ∧ ∀ done rest, w₁.store.pairs v = done ++ rest →
        ∀ shown w₃, frame.barred.rounds f.key f.val
            (frame.barred.run (Render.carefulAt frame.env frame.root depth) f.pass)
            (done.map fun p => .tuple [p.1, p.2]) w₂ = .ok shown w₃ →
          ∃ i, f.Passes (Render.callsAt frame.env frame.root depth) frame w₁.store.dicts.size parent
              (w₁.store.pairs v).length 0 done w₂ shown i w₃ ∧
            (∀ pair ∈ rest.head?, ∀ w₄, f.accepts (Render.carefulAt frame.env frame.root depth)
                frame.barred pair w₃ = .ok true w₄ →
              (∀ frame' w₅, Frame.Reaches depth frame f.body w₄ frame' w₅ →
                frame'.Sees w₅ (Loop.numbers f.condition.isSome (w₁.store.pairs v).length i)) ∧
              ∀ out w₅, frame.barred.run (Render.carefulAt frame.env frame.root depth) f.body w₄ =
                  .ok out w₅ →
                ∃ w₆, frame.barred.rounds f.key f.val
                  (frame.barred.run (Render.carefulAt frame.env frame.root depth) f.pass)
                  ((done ++ [pair]).map fun p => .tuple [p.1, p.2]) w₂ = .ok (shown ++ out) w₆) ∧
            (rest = [] → ∀ out w', frame.run (Render.callsAt frame.env frame.root depth) code w =
                .ok out w' ↔
              ∃ instead w₄ s₅, f.Instead (Render.callsAt frame.env frame.root depth) frame i
                  { w₃ with store := w₃.store.mark w₁.store.lists.size (· - 1) } instead w₄ ∧
                frame.scope.leaveScope frame.context [f.key, f.val] w₄.store = .ok () s₅ ∧
                { w₄ with store := s₅ } = w' ∧ shown ++ instead = out)) := by
  obtain ⟨f, rfl, made⟩ := of_loopNode hescape hnames hcode
  refine ⟨f, rfl, made, ?_⟩
  intro hf depth frame hcallables w w₁ v parent hsequence hvariables hparent
  obtain ⟨hbody, -⟩ := fair_iff.1 hf
  have careful := Render.carefulAt_careful hcallables frame.root depth
  have steady : frame.barred.env.Steady := frame.env.barred_steady hcallables
  obtain ⟨_, _, saved, valued⟩ := bind_ok.1 hsequence
  obtain ⟨s₁, hs₁, rfl⟩ := Eval.ofAct_ok.1 saved
  obtain ⟨s₂, entered, opened⟩ := Loop.enter_ok f.flags v hvariables.there hparent
  let w₂ : World := { w₁ with store := s₂.mark w₁.store.lists.size (· + 1) }
  have start : f.Between frame.barred.context w₁.store.dicts.size parent (w₁.store.pairs v).length 0
    w₂.store := between_start hvariables opened _ _
  refine ⟨w₂, ⟨s₂, entered, rfl⟩, fun done rest split shown w₃ ran => ?_⟩
  obtain ⟨i, passes, after⟩ := passes_of_rounds steady careful hf start ran
  refine ⟨i, passes.of_careful hcallables, fun pair _ w₄ accepted => ⟨fun frame' w₅ reached => ?_,
    fun out w₅ body => rounds_of_body steady careful hf after ran accepted body⟩, fun all out w' => ?_⟩
  · have kept := (accepts_keeps steady careful hf pair).state accepted after.counting.holds
    exact (reached.counting hcallables hbody (after.counting.spared kept)).sees
  · obtain rfl : w₁.store.pairs v = done := by rw [split, all, List.append_nil]
    have seq : (s₂.dict frame.context).get? (.text "_seq") = some (.list w₁.store.lists.size) := by
      rw [opened.vars, Loop.get?_opening_seq]
    have rounds := (Frame.rounds_careful hcallables f.key f.val f.pass _).same ran
    rw [← opened.items] at rounds
    have looped := (Frame.looping_ok (w := { w₁ with store := s₂ }) seq).2 ⟨w₃, rounds, rfl⟩
    rw [code, Frame.run_loop_iff hs₁ valued entered looped (hadNone_of_between after)]
    simp only [instead_iff]

def printed (name : String) : Node :=
  .ofPrint (.ofAccess (.ofName "loop" 1) (.ofString name 1) (.plain .arguments 1 []) .any 1) 1

/-- A body that shows the number of its round, before and after a loop over one value that shows the
number of its own. -/
def tallyBody : Node :=
  .ofBody [printed "index", Parse.loopNode 1 (.ofTarget "_key" 1) (.ofTarget "y" 1)
    (.plain .array 1 [.ofName "x" 1]) .absent (.ofBody [printed "index"] 1) .absent,
    printed "index0"] 1

/-- A loop over three values that accepts two of them. -/
def tally : ForLoop where
  key := "_key"
  val := "x"
  sequence := .array [.constant (.int 7), .constant (.int 8), .constant (.int 9)]
  condition := some (.relate .gt (.reading "x" false 1) (.constant (.int 7)))
  body := (((Program.partOf tallyBody).stmt 1).getD (.skip, 1)).1
  otherwise := some (.text "none")
  mark := 1
  roundMark := 1
  elseMark := 1
  endMark := 1

def tallyNode : Node :=
  Parse.loopNode 1 (.ofTarget "_key" 1) (.ofTarget "x" 1)
    (.plain .array 1 [.ofConstant (.int 7) 1, .ofConstant (.int 8) 1, .ofConstant (.int 9) 1])
    (.plain .greater 1 [.ofName "x" 1, .ofConstant (.int 7) 1]) tallyBody (.ofText "none" 1)

def tallyFrame : Frame :=
  (Environment.ofCore {} (fun _ => .ok "") ⟨#[]⟩).frame "" ⟨"page", "", .skip, none, 1, 1, []⟩ 0 []

def tallyWorld : World := { World.start with store := ⟨#[], #[.ready []], #[], 0, 0⟩ }

def tallyReady : World :=
  { World.start with
    store := ⟨#[⟨[.int 7, .int 8, .int 9], 0⟩], #[.ready [(.text "_parent", .dict 1)], .filled []],
      #[], 0, 0⟩ }

def tallyBegun : World :=
  { World.start with
    store :=
      { lists := #[⟨[.int 7, .int 8, .int 9], 0⟩, ⟨[.tuple [.int 0, .int 7], .tuple [.int 1, .int 8],
          .tuple [.int 2, .int 9]], 1⟩]
        dicts := #[.ready [(.text "_parent", .dict 1), (.text "_seq", .list 1),
          (.text "_iterated", .bool false), (.text "loop", .dict 2)], .filled [],
          .ready (account true (.dict 1) 3 0)]
        sets := #[]
        handles := 0
        copies := 0 } }

theorem goes_through_tally :
    (Program.partOf tallyNode).stmt 1 = some (tally.code, 1) ∧ tally.fair = true ∧
    tallyReady.store.Holds 0 ∧ tally.Begins tallyFrame (.list 0) tallyReady tallyBegun ∧
    Gives (tallyFrame.run (Render.callsAt tallyFrame.env tallyFrame.root 0) tally.code) tallyWorld
      "110211" ∧
    ∃ i w₃, tally.Passes (Render.callsAt tallyFrame.env tallyFrame.root 0) tallyFrame 2 (.dict 1) 3 0
      [(.int 0, .int 7), (.int 1, .int 8), (.int 2, .int 9)] tallyBegun "110211" i w₃ := by
  have fair : tally.fair = true := by decide
  have steady : ∀ c, tallyFrame.env.registry.Offers c → c.Steady := by
    refine Registry.forall_offers fun e he => ?_
    rw [List.mem_singleton.1 he]
    exact Language.core_steady
  have sequence : (do
      Eval.ofAct (Loop.save tallyFrame.context)
      tallyFrame.value (Render.callsAt tallyFrame.env tallyFrame.root 0) tally.sequence)
        tallyWorld = .ok (.list 0) tallyReady := rfl
  have holds : tallyReady.store.Holds tallyFrame.context := ⟨by decide, by decide⟩
  have code : (Program.partOf tallyNode).stmt 1 = some (tally.code, 1) := rfl
  obtain ⟨f, is, -, through⟩ := @goes_through id (.inl rfl) _ _ _ _ _ _ _ _ _ (by decide) _ code
  obtain rfl := code_injective is
  obtain ⟨w₂, begins, through⟩ := through fair 0 tallyFrame steady _ _ _ _ sequence holds rfl
  obtain rfl : w₂ = tallyBegun := by
    obtain ⟨s, entered, rfl⟩ := begins
    cases entered
    rfl
  obtain ⟨w₃, rounds⟩ : Gives (tallyFrame.barred.rounds tally.key tally.val (tallyFrame.barred.run
      (Render.carefulAt tallyFrame.env tallyFrame.root 0) tally.pass)
      ((tallyReady.store.pairs (.list 0)).map fun p => .tuple [p.1, p.2])) tallyBegun "110211" := by
    decide +kernel
  obtain ⟨i, passes, -⟩ := through _ [] (List.append_nil _).symm _ w₃ rounds
  exact ⟨code, fair, holds, begins, by decide +kernel, i, w₃, passes⟩

def clash : ForLoop :=
  { tally with
    val := "_iterated"
    sequence := .array [.constant (.int 1), .constant (.int 0)]
    condition := some (.reading "_iterated" false 1)
    body := (((Program.partOf (.ofBody [printed "index"] 1)).stmt 1).getD (.skip, 1)).1 }

def clashNode : Node :=
  Parse.loopNode 1 (.ofTarget "_key" 1) (.ofTarget "_iterated" 1)
    (.plain .array 1 [.ofConstant (.int 1) 1, .ofConstant (.int 0) 1]) (.ofName "_iterated" 1)
    (.ofBody [printed "index"] 1) (.ofText "none" 1)

/-- A loop with such a target may show its other body although a pair has been accepted. -/
theorem other_body_after_round :
    (Program.partOf clashNode).stmt 1 = some (clash.code, 1) ∧
    clash.body.tame false = true ∧ Loop.free clash.key = true ∧ Loop.free clash.val = true ∧
    Gives (do
      Eval.ofAct (Loop.save tallyFrame.context)
      let v ← tallyFrame.value (Render.callsAt tallyFrame.env tallyFrame.root 0) clash.sequence
      Eval.ofAct (Loop.enter tallyFrame.context clash.flags v)
      clash.accepts (Render.callsAt tallyFrame.env tallyFrame.root 0) tallyFrame (.int 0, .int 1))
      tallyWorld true ∧
    Gives (tallyFrame.run (Render.callsAt tallyFrame.env tallyFrame.root 0) clash.code) tallyWorld
      "1none" := by
  refine ⟨rfl, ?_⟩
  decide +kernel

end ForLoop
end Stencil
