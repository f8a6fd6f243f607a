import Stencil.Proofs.Variables

/-!
# The account a loop keeps

A loop that has a variable `loop` keeps its account there: the number of the round, counted from the
first and from the last. The dict is made when the loop starts and counted up or down at the end of
each round.
-/

namespace Stencil

open List Entries
namespace Loop

open Step (bind_ok)

/-! ## What the account says -/

/-- What a loop says of its `i`-th round, out of `count` if that is known. -/
def numbers (conditional : Bool) (count i : Nat) : List (String × Value) :=
  [("index0", .int i), ("index", .int (i + 1)), ("first", .bool (i == 0))] ++
    if conditional then []
    else [("length", .int count), ("revindex0", .int (count - 1 - i)), ("revindex", .int (count - i)),
      ("last", .bool (i + 1 == count))]

/-- The entries of the variable `loop` in the `i`-th round. -/
def account (conditional : Bool) (parent : Value) (count i : Nat) : Entries :=
  (.text "parent", parent) :: (numbers conditional count i).map fun n => (.text n.1, n.2)

variable {conditional : Bool} {parent : Value} {count i : Nat}

variable {v : Value} {l q : Nat}

theorem get?_account {name : String} (h : (name, v) ∈ numbers conditional count i) :
    (account conditional parent count i).get? (.text name) = some v := by
  cases conditional with
  | true =>
    simp only [numbers, if_true, append_nil, mem_cons, not_mem_nil, or_false,
      Prod.mk.injEq] at h
    rcases h with ⟨rfl, rfl⟩ | ⟨rfl, rfl⟩ | ⟨rfl, rfl⟩ <;> rfl
  | false =>
    simp only [numbers, Bool.false_eq_true, if_false, cons_append, nil_append,
      mem_cons, not_mem_nil, or_false, Prod.mk.injEq] at h
    rcases h with ⟨rfl, rfl⟩ | ⟨rfl, rfl⟩ | ⟨rfl, rfl⟩ | ⟨rfl, rfl⟩ | ⟨rfl, rfl⟩ | ⟨rfl, rfl⟩ |
      ⟨rfl, rfl⟩ <;> rfl

theorem assign_account_first (parent : Value) (count n : Nat) :
    ((((account true parent count 0).assign "length" (.int n)).assign "revindex0"
      (.int (n - 1))).assign "revindex" (.int n)).assign "last" (.bool ((n : Int) == 1)) =
      account false parent n 0 := by
  have last : ((n : Int) == 1) = (1 == n) := by
    rw [Bool.eq_iff_iff, beq_iff_eq, beq_iff_eq]
    omega
  simp [account, numbers, assign, Value.sameScalar, last]

/-- What a round adds to the account, whatever its loop knows. -/
def counted (i : Nat) (es : Entries) : Entries :=
  ((es.assign "index0" (.int (i + 1))).assign "index" (.int (i + 1 + 1))).assign "first" (.bool false)

theorem counted_account_true :
    counted i (account true parent count i) = account true parent count (i + 1) := by
  simp [counted, account, numbers, assign, Value.sameScalar]

theorem counted_account_false {last : Bool} (hlast : last = (i + 1 + 1 == count)) :
    (((counted i (account false parent count i)).assign "revindex0"
      (.int (count - 1 - i - 1))).assign "revindex" (.int (count - i - 1))).assign "last"
      (.bool last) = account false parent count (i + 1) := by
  have left : (count : Int) - 1 - i - 1 = count - 1 - (i + 1) := by omega
  have left' : (count : Int) - i - 1 = count - (i + 1) := by omega
  simp [counted, account, numbers, assign, Value.sameScalar, left, left', hlast]

/-! ## Starting -/

theorem length_numbered (n : Nat) (items : List Value) :
    (numbered n items).length = items.length := by
  induction items generalizing n with
  | nil => rfl
  | cons v vs ih => exact congrArg (· + 1) (ih (n + 1))

variable {s : Store} {c : Nat}

theorem addCount_ok (hl : l < s.dicts.size) (hseq : (s.dict c).get? (.text "_seq") = some (.list q))
    (hloop : (s.dict c).get? (.text "loop") = some (.dict l))
    (hnew : s.dict l = account true parent count 0) :
    addCount c s = .ok () (s.fill l (account false parent (s.list q).length 0)) := by
  have rounds : (s.pairs (.list q)).length = (s.list q).length := length_numbered 0 _
  have put : ∀ es name v,
      putItem (.dict l) name v (s.fill l es) = .ok () (s.fill l (es.assign name v)) := by
    intro es name v
    rw [← Store.assign_fill hl]
    exact put_eq l name v _
  have first : putItem (.dict l) "length" (.int (s.list q).length) s =
      .ok () (s.fill l ((s.dict l).assign "length" (.int (s.list q).length))) := put_eq l _ _ s
  unfold addCount
  refine bind_ok.2 ⟨s, s, rfl, bind_ok.2 ⟨_, s, need_ok.2 ⟨hseq, rfl⟩,
    bind_ok.2 ⟨_, s, need_ok.2 ⟨hloop, rfl⟩, ?_⟩⟩⟩
  rw [rounds]
  refine bind_ok.2 ⟨(), _, first, bind_ok.2 ⟨(), _, put _ _ _, bind_ok.2 ⟨(), _, put _ _ _, ?_⟩⟩⟩
  rw [put, hnew, assign_account_first]

theorem start_ok (flags : LoopFlags) (hc : c < s.dicts.size)
    (hparent : (s.dict c).get? (.text "_parent") = some parent)
    (hseq : (s.dict c).get? (.text "_seq") = some (.list q)) :
    ∃ s', start c flags s = .ok () s' ∧ s.Agree (· = c) s' ∧ s'.dict c = (s.dict c).assign "loop"
      (.dict s.dicts.size) ∧ s'.lists = s.lists ∧ s.dicts.size < s'.dicts.size ∧ s'.dict
      s.dicts.size = account flags.conditional parent (s.list q).length 0 := by
  -- `s₁` has an account without numbers of what is left, and `s₂` the variable `loop` as well
  let l := s.dicts.size
  let t : Table := .ready (account true parent (s.list q).length 0)
  let s₁ : Store := { s with dicts := s.dicts.push t }
  let s₂ := s₁.assign c "loop" (.dict l)
  have apart : c ≠ l := Nat.ne_of_lt hc
  have hl : l < s₂.dicts.size := by
    rw [Store.size_assign, Array.size_push]
    exact Nat.lt_succ_self l
  have grown : s.Extends s₁ := (Store.Agree.refl s).pushDict t
  have agree : s.Agree (· = c) s₁ := .of_extends grown
  have agree : s.Agree (· = c) s₂ := agree.assign fun _ => rfl
  have vars : s₂.dict c = (s.dict c).assign "loop" (.dict l) := by
    rw [← grown.dict hc id]
    exact Store.dict_assign_self (Nat.lt_of_lt_of_le hc grown.dictsSize)
  have new : s₂.dict l = account true parent (s.list q).length 0 :=
    (Store.dict_assign_of_ne apart.symm).trans Store.dict_pushDict_self
  have opened : ∀ {s' : Store},
      (if !flags.conditional then addCount c else pure () : Act Unit) s₂ = .ok () s' →
        start c flags s = .ok () s' :=
    fun h => bind_ok.2 ⟨parent, s, need_ok.2 ⟨hparent, rfl⟩, bind_ok.2 ⟨.dict l, s₁, rfl,
      bind_ok.2 ⟨(), s₂, put_eq c "loop" (.dict l) s₁, h⟩⟩⟩
  cases hconditional : flags.conditional with
  | true =>
    rw [hconditional] at opened
    exact ⟨s₂, opened rfl, agree, vars, rfl, hl, new⟩
  | false =>
    rw [hconditional] at opened
    have hseq : (s₂.dict c).get? (.text "_seq") = some (.list q) := by
      rw [vars, get?_assign_of_ne (by decide), hseq]
    have hloop : (s₂.dict c).get? (.text "loop") = some (.dict l) := by
      rw [vars, get?_assign_self]
    refine ⟨_, opened (addCount_ok hl hseq hloop new), agree.fill fun old => ?_, ?_, rfl, ?_,
      Store.dict_fill_self hl⟩
    · exact absurd old (Nat.lt_irrefl l)
    · rw [Store.dict_fill_of_ne apart, vars]
    · rw [Store.size_fill]
      exact hl

def opening (flags : LoopFlags) (list dict : Nat) (es : Entries) : Entries :=
  let es := es.assign "_seq" (.list list)
  let es := if flags.hasElse then es.assign "_iterated" (.bool false) else es
  if flags.withLoop then es.assign "loop" (.dict dict) else es

section Opening

variable {flags : LoopFlags} {list dict : Nat} {es : Entries}

theorem proper_opening (h : es.proper = true) : (opening flags list dict es).proper = true := by
  have numbered : (es.assign "_seq" (.list list)).proper = true := proper_assign h
  unfold opening
  dsimp only
  split <;> split
  · exact proper_assign (proper_assign numbered)
  · exact proper_assign numbered
  · exact proper_assign numbered
  · exact numbered

theorem get?_opening_of_ne {name : String} (hseq : name ≠ "_seq") (hiterated : name ≠ "_iterated")
    (hloop : name ≠ "loop") :
    (opening flags list dict es).get? (.text name) = es.get? (.text name) := by
  unfold opening
  dsimp only
  split <;> split <;>
    simp only [get?_assign_of_ne, hseq, hiterated, hloop, ne_eq, not_false_eq_true]

theorem get?_opening_seq :
    (opening flags list dict es).get? (.text "_seq") = some (.list list) := by
  unfold opening
  dsimp only
  split <;> split <;> simp [get?_assign_of_ne, get?_assign_self]

theorem get?_opening_loop (h : flags.withLoop = true) :
    (opening flags list dict es).get? (.text "loop") = some (.dict dict) := by
  unfold opening
  dsimp only
  rw [if_pos h]
  exact get?_assign_self

theorem get?_opening_iterated (h : flags.hasElse = true) :
    (opening flags list dict es).get? (.text "_iterated") = some (.bool false) := by
  unfold opening
  dsimp only
  rw [if_pos h]
  split
  · rw [get?_assign_of_ne (by decide), get?_assign_self]
  · exact get?_assign_self

end Opening

structure Entered (s : Store) (c : Nat) (flags : LoopFlags) (v parent : Value) (s' : Store) :
    Prop where
  agree : s.Agree (· = c) s'
  vars : s'.dict c = opening flags s.lists.size s.dicts.size (s.dict c)
  listed : s.lists.size < s'.lists.size
  items : s'.list s.lists.size = (s.pairs v).map fun p => .tuple [p.1, p.2]
  account : flags.withLoop = true → s.dicts.size < s'.dicts.size ∧
    s'.dict s.dicts.size = account flags.conditional parent (s.pairs v).length 0

theorem Entered.seq {flags : LoopFlags} {v parent : Value} {s' : Store}
    (h : Entered s c flags v parent s') :
    (s'.dict c).get? (.text "_seq") = some (.list s.lists.size) := by
  rw [h.vars, get?_opening_seq]

/-- Nothing keeps a loop from starting; one with a variable `loop` needs to know what was saved. -/
theorem enters (flags : LoopFlags) (v : Value) (hc : c < s.dicts.size)
    (hparent : flags.withLoop = true → (s.dict c).get? (.text "_parent") = some parent) :
    ∃ s', enter c flags v s = .ok () s' ∧ Entered s c flags v parent s' := by
  -- `s₁` has the list of the pairs, `s₂` and `s₃` the variables that are set before the account is made
  let q := s.lists.size
  let items := (s.pairs v).map fun p => Value.tuple [p.1, p.2]
  let s₁ : Store := { s with lists := s.lists.push ⟨items, 0⟩ }
  let s₂ := s₁.assign c "_seq" (.list q)
  let s₃ := if flags.hasElse then s₂.assign c "_iterated" (.bool false) else s₂
  let es := (s.dict c).assign "_seq" (.list q)
  have opened : ∀ {s' : Store},
      (if flags.withLoop then start c flags else pure () : Act Unit) s₃ = .ok () s' →
        enter c flags v s = .ok () s' := by
    intro s' h
    refine bind_ok.2 ⟨.list q, s₁, rfl, bind_ok.2 ⟨(), s₂, put_eq c "_seq" (.list q) s₁, ?_⟩⟩
    cases hhasElse : flags.hasElse with
    | true =>
      simp only [s₃, hhasElse, if_true] at h
      exact bind_ok.2 ⟨(), _, put_eq c "_iterated" (.bool false) s₂, h⟩
    | false =>
      simp only [s₃, hhasElse, Bool.false_eq_true, if_false] at h
      exact h
  have agree₂ : s.Agree (· = c) s₂ :=
    ((Store.Agree.refl s).pushList ⟨items, 0⟩ : s.Agree (· = c) s₁).assign fun _ => rfl
  have size₂ : s₂.dicts.size = s.dicts.size := Store.size_assign
  have third : s.Agree (· = c) s₃ ∧ s₃.lists = s₁.lists ∧ s₃.dicts.size = s.dicts.size ∧
      s₃.dict c = if flags.hasElse then es.assign "_iterated" (.bool false) else es := by
    cases hhasElse : flags.hasElse with
    | true =>
      simp only [s₃, hhasElse, if_true]
      refine ⟨agree₂.assign fun _ => rfl, rfl, Store.size_assign.trans size₂, ?_⟩
      rw [Store.dict_assign_self (size₂ ▸ hc)]
      exact congrArg _ (Store.dict_assign_self hc)
    | false =>
      simp only [s₃, hhasElse, Bool.false_eq_true, if_false]
      exact ⟨agree₂, rfl, size₂, Store.dict_assign_self hc⟩
  obtain ⟨agree, lists, size, vars⟩ := third
  have listed : s.lists.size < s₃.lists.size := by
    rw [lists, Array.size_push]
    exact Nat.lt_succ_self q
  have listItems : s₃.list q = items := by
    unfold Store.list Store.listCell
    rw [lists]
    exact Store.list_pushList_self
  have got : ∀ {name : String}, name ≠ "_iterated" →
      (s₃.dict c).get? (.text name) = es.get? (.text name) := by
    intro name hname
    rw [vars]
    split
    · exact get?_assign_of_ne hname
    · rfl
  cases hwithLoop : flags.withLoop with
  | false =>
    rw [hwithLoop] at opened
    refine ⟨s₃, opened rfl, agree, ?_, listed, listItems, ?_⟩
    · rw [vars, opening, hwithLoop]
      rfl
    · rw [hwithLoop]
      nofun
  | true =>
    rw [hwithLoop] at opened
    have hparent₃ : (s₃.dict c).get? (.text "_parent") = some parent := by
      rw [got (by decide), get?_assign_of_ne (by decide), hparent hwithLoop]
    have hseq₃ : (s₃.dict c).get? (.text "_seq") = some (.list q) := by
      rw [got (by decide), get?_assign_self]
    obtain ⟨s', started, agree', vars', lists', more, new⟩ :=
      start_ok flags (size ▸ hc) hparent₃ hseq₃
    rw [size] at vars' more new
    refine ⟨s', opened started, agree.trans agree', ?_, ?_, ?_, fun _ => ⟨more, ?_⟩⟩
    · rw [vars', vars, opening, hwithLoop]
      rfl
    · rw [lists']
      exact listed
    · unfold Store.list Store.listCell
      rw [lists']
      exact listItems
    · rw [new, listItems, length_map]

theorem enter_ok (flags : LoopFlags) (v : Value) (hc : c < s.dicts.size)
    (hparent : (s.dict c).get? (.text "_parent") = some parent) :
    ∃ s', enter c flags v s = .ok () s' ∧ Entered s c flags v parent s' :=
  enters flags v hc fun _ => hparent

theorem entered_of_enter {flags : LoopFlags} {s' : Store} (hc : c < s.dicts.size)
    (ok : enter c flags v s = .ok () s') : ∃ parent, Entered s c flags v parent s' := by
  have parent : ∃ parent, flags.withLoop = true →
      (s.dict c).get? (.text "_parent") = some parent := by
    cases hwithLoop : flags.withLoop with
    | false => exact ⟨.null, nofun⟩
    | true =>
      -- what is stored before the account is made leaves the saved variables alone
      have old : ∀ {s₁ s₂ : Store} {name : String} {x : Value} {u : Unit}, name ≠ "_parent" →
          put c name x s₁ = .ok u s₂ → c < s₁.dicts.size →
          (s₂.dict c).get? (.text "_parent") = (s₁.dict c).get? (.text "_parent") ∧
            c < s₂.dicts.size := by
        intro s₁ s₂ name x _ hname ok hc
        obtain rfl := put_ok.1 ok
        refine ⟨?_, Store.size_assign.symm ▸ hc⟩
        rw [Store.dict_assign_self hc, get?_assign_of_ne hname.symm]
      unfold enter at ok
      rw [hwithLoop] at ok
      obtain ⟨_, s₁, listed, ok⟩ := bind_ok.1 ok
      cases listed
      obtain ⟨_, s₂, stored, ok⟩ := bind_ok.1 ok
      obtain ⟨same, hc₂⟩ := old (by decide) stored hc
      obtain ⟨s₃, same₃, ok⟩ : ∃ s₃ : Store, (s₃.dict c).get? (.text "_parent") =
          (s₂.dict c).get? (.text "_parent") ∧ start c flags s₃ = .ok () s' := by
        cases hhasElse : flags.hasElse with
        | true =>
          rw [hhasElse] at ok
          obtain ⟨_, s₃, noted, ok⟩ := bind_ok.1 ok
          exact ⟨s₃, (old (by decide) noted hc₂).1, ok⟩
        | false =>
          rw [hhasElse] at ok
          exact ⟨s₂, rfl, ok⟩
      obtain ⟨parent, _, needed, -⟩ := bind_ok.1 ok
      exact ⟨parent, fun _ => same.symm.trans (same₃.symm.trans (need_ok.1 needed).1)⟩
  obtain ⟨parent, hparent⟩ := parent
  -- a loop starts in one way only, so this start is the one that is known
  obtain ⟨_, again, entered⟩ := enters flags v hc hparent
  cases again.symm.trans ok
  exact ⟨parent, entered⟩

/-! ## Rounds -/

theorem bump_ok {key : String} {x : Int} (up : Bool)
    (hloop : (s.dict c).get? (.text "loop") = some (.dict l))
    (hkey : (s.dict l).get? (.text key) = some (.int x)) :
    bump c key up s = .ok () (s.assign l key (.int (if up then x + 1 else x - 1))) :=
  bind_ok.2 ⟨.dict l, s, need_ok.2 ⟨hloop, rfl⟩, bind_ok.2 ⟨.int x, s, need_ok.2 ⟨hkey, rfl⟩,
    bind_ok.2 ⟨_, s, rfl, put_eq l key _ s⟩⟩⟩

theorem compare_int (x y : Int) (s : Store) :
    Act.compare .eq (.int x) (.int y) s = .ok (x == y) s := by
  have same : (compare x y == .eq) = (x == y) := by
    rw [Bool.eq_iff_iff, beq_iff_eq, beq_iff_eq, Std.compare_eq_iff_eq]
  rw [← same]
  rfl

theorem count_ok {flags : LoopFlags} (apart : c ≠ l) (hl : l < s.dicts.size)
    (hloop : (s.dict c).get? (.text "loop") = some (.dict l))
    (hnow : s.dict l = account flags.conditional parent count i) :
    Loop.count c flags s = .ok () (s.fill l (account flags.conditional parent count (i + 1))) := by
  -- every step after the first starts from `s` with other entries in the account
  have loop : ∀ es, ((s.fill l es).dict c).get? (.text "loop") = some (.dict l) := by
    intro es
    rw [Store.dict_fill_of_ne apart, hloop]
  have bump : ∀ es key x up, es.get? (.text key) = some (.int x) → bump c key up (s.fill l es) =
      .ok () (s.fill l (es.assign key (.int (if up then x + 1 else x - 1)))) := by
    intro es key x up hkey
    rw [← Store.assign_fill hl]
    exact bump_ok up (loop es) ((Store.dict_fill_self hl).symm ▸ hkey)
  have put : ∀ es key v,
      putItem (.dict l) key v (s.fill l es) = .ok () (s.fill l (es.assign key v)) := by
    intro es key v
    rw [← Store.assign_fill hl]
    exact put_eq l key v _
  have need : ∀ es, need c "loop" (s.fill l es) = .ok (.dict l) (s.fill l es) :=
    fun es => need_ok.2 ⟨loop es, rfl⟩
  have first : Loop.bump c "index0" true s = .ok () (s.fill l (assign "index0"
      (.int (i + 1)) (account flags.conditional parent count i))) := by
    rw [← hnow]
    refine bump_ok true hloop ?_
    rw [hnow]
    cases flags.conditional <;> rfl
  refine bind_ok.2 ⟨(), _, first, bind_ok.2 ⟨(), _, bump _ "index" (i + 1) true ?_,
    bind_ok.2 ⟨_, _, need _, bind_ok.2 ⟨(), _, put _ "first" (.bool false), ?_⟩⟩⟩⟩
  · cases flags.conditional <;> rfl
  · cases flags.conditional with
    | true =>
      change EStateM.Result.ok () (s.fill l (counted i (account true parent count i))) = _
      rw [counted_account_true]
    | false =>
      refine bind_ok.2 ⟨(), _, bump _ "revindex0" (count - 1 - i) false rfl, bind_ok.2 ⟨(), _,
        bump _ "revindex" (count - i) false rfl, bind_ok.2 ⟨_, _, need _, ?_⟩⟩⟩
      have left : ∀ es : Entries, es.get? (.text "revindex0") = some (.int (count - 1 - i - 1)) →
          item (.dict l) "revindex0" (s.fill l es) =
            .ok (.int (count - 1 - i - 1)) (s.fill l es) :=
        fun es h => need_ok.2 ⟨(Store.dict_fill_self hl).symm ▸ h, rfl⟩
      refine bind_ok.2 ⟨_, _, left _ rfl, bind_ok.2 ⟨_, _, compare_int _ 0 _, ?_⟩⟩
      rw [put]
      refine congrArg (fun es => EStateM.Result.ok () (s.fill l es)) (counted_account_false ?_)
      rw [Bool.eq_iff_iff, beq_iff_eq, beq_iff_eq]
      omega

/-- The end of a round never fails, and leaves the account of the next one. -/
theorem endRound_ok {flags : LoopFlags} (hwithLoop : flags.withLoop = true) (hc : c < s.dicts.size)
    (apart : c ≠ l) (hl : l < s.dicts.size)
    (hloop : (s.dict c).get? (.text "loop") = some (.dict l))
    (hnow : s.dict l = account flags.conditional parent count i) :
    endRound c flags s = .ok ()
      ((if flags.hasElse then s.assign c "_iterated" (.bool true) else s).fill l
        (account flags.conditional parent count (i + 1))) := by
  obtain ⟨withLoop, conditional, hasElse⟩ := flags
  cases hwithLoop
  cases hasElse with
  | true =>
    have hloop' : ((s.assign c "_iterated" (.bool true)).dict c).get? (.text "loop") =
        some (.dict l) := by
      rw [Store.dict_assign_self hc, get?_assign_of_ne (by decide), hloop]
    refine bind_ok.2 ⟨(), _, put_eq c "_iterated" (.bool true) s, ?_⟩
    exact count_ok apart (Store.size_assign.symm ▸ hl) hloop'
      ((Store.dict_assign_of_ne apart.symm).trans hnow)
  | false => exact count_ok apart hl hloop hnow

end Loop
end Stencil
