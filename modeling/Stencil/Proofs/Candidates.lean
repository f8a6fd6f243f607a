import Stencil.Proofs.FrontEnd
import Stencil.Proofs.Loading

/-!
# The first template that exists

Where a template is asked for, there may be several candidates, in lists and tuples nested to any
depth. Only their order counts: the candidates are the leaves from left to right (`Datum.leaves`), a
name that the source of templates does not know is passed over, and the first other candidate is
taken, whatever comes of it (`Frame.resolveValue_first`).

A candidate is never passed over because of what its source says. A source that cannot be made into a
template fails in some other way than a name that is not known (`Environment.build_saysMissing`).
-/

namespace Stencil

open List

namespace Datum

mutual

def leaves : Datum → List Datum
  | list items => leavesOf items
  | tuple items => leavesOf items
  | d => [d]

def leavesOf : List Datum → List Datum
  | [] => []
  | d :: ds => leaves d ++ leavesOf ds

end

def candidates? : Datum → Option (List Datum)
  | list items => some items
  | tuple items => some items
  | _ => none

end Datum

theorem Environment.build_saysMissing {env : Environment} (hg : env.registry.grammar.Sound)
    {source name : String} {f : Failure} (h : env.build source name = .error f) :
    f.saysMissing = false := by
  have read := tree_ends source name hg
  simp only [build, bind, Except.bind] at h
  generalize env.tree source name = tree at read h
  cases read with
  | error => cases h; rfl
  | @ok module whole =>
    rcases Listing.compile_cases whole fun _ => unitName name source with
      ⟨text, done⟩ | ⟨line, failed, -⟩
    · simp only [done] at h
      split at h
      · cases h; rfl
      · split at h <;> cases h
        rfl
    · simp only [failed] at h
      cases h
      rfl

namespace Frame

variable {frame : Frame} {line : Int} {d leaf : Datum} {w : World}

/-- A name that the source of templates says it does not know. -/
def missing (frame : Frame) : Datum → Bool
  | .template _ _ => false
  | leaf => match frame.env.source leaf.print with
    | .ok _ => false
    | .error f => f.saysMissing

/-- What comes of a candidate that is taken: a template is there already, and a name is loaded. If
that fails, so it does at the given line. -/
def taken (frame : Frame) (line : Int) : Datum → Eval (Option Template)
  | .template _ unit => return some (← Eval.templateOf unit)
  | leaf => return some (← tryCatch (Eval.ofTask (frame.env.loadTemplate leaf.print)) fun fault =>
      frame.raiseFrom line (.notLoaded leaf.print) fault.failure)

theorem taken_some (frame : Frame) (line : Int) (leaf : Datum) :
    ∃ x : Eval Template, frame.taken line leaf = do return some (← x) := by
  cases leaf <;> exact ⟨_, rfl⟩

/-! ## One candidate -/

theorem raiseFrom_bind (reason : Raised) (f : Failure) :
    (do return some (← frame.raiseFrom line reason f) : Eval (Option Template)) =
      frame.raiseFrom line reason f := by
  unfold raiseFrom raise
  split
  · rfl
  · split <;> rfl

theorem resolve_of_name (frame : Frame) (line : Int) (ignoreMissing : Bool)
    (alone : d.candidates? = none) (other : ∀ name unit, d ≠ .template name unit) :
    frame.resolve ignoreMissing line d =
        (tryCatch (return some (← Eval.ofTask (frame.env.loadTemplate d.print))) fun fault =>
          if ignoreMissing && fault.failure.saysMissing then return none
          else frame.raiseFrom line (.notLoaded d.print) fault.failure) ∧
      frame.taken line d =
        (do return some (← tryCatch (Eval.ofTask (frame.env.loadTemplate d.print)) fun fault =>
          frame.raiseFrom line (.notLoaded d.print) fault.failure)) ∧
      frame.missing d = match frame.env.source d.print with
        | .ok _ => false
        | .error f => f.saysMissing := by
  cases d with
  | list | tuple => cases alone
  | template name unit => exact absurd rfl (other name unit)
  | _ => exact ⟨by rw [resolve.eq_def], rfl, rfl⟩

/-- A candidate is passed over if it is missing, and else taken. -/
theorem resolve_alone (hg : frame.env.registry.grammar.Sound) (ignoreMissing : Bool)
    (alone : d.candidates? = none) :
    frame.resolve ignoreMissing line d w =
      if ignoreMissing && frame.missing d then .ok none w
      else frame.taken line d w := by
  by_cases template : ∃ name unit, d = .template name unit
  · obtain ⟨name, unit, rfl⟩ := template
    rw [resolve, missing, Bool.and_false]
    rfl
  obtain ⟨resolved, taken, missing⟩ := resolve_of_name frame line ignoreMissing
    alone fun name unit same => template ⟨name, unit, same⟩
  rw [resolved, taken, missing]
  cases loaded : frame.env.loadTemplate d.print w with
  | ok t w' =>
    have task : Eval.ofTask (frame.env.loadTemplate d.print) w = .ok t w' := by
      rw [Eval.ofTask, loaded]
    obtain ⟨source, given, -⟩ := Environment.loadTemplate_ok.1 loaded
    simp only [given, Bool.and_false, Bool.false_eq_true, if_false]
    have made : (do return some (← Eval.ofTask (frame.env.loadTemplate d.print)) :
        Eval (Option Template)) w = .ok (some t) w' := Step.bind_of_ok task
    refine (Step.tryCatch_of_ok made).trans (Eq.symm ?_)
    exact Step.bind_of_ok (Step.tryCatch_of_ok task)
  | error f w' =>
    have task : Eval.ofTask (frame.env.loadTemplate d.print) w = .error ⟨f, 0⟩ w' := by
      rw [Eval.ofTask, loaded]
    have raised : (do return some (← (tryCatch (Eval.ofTask (frame.env.loadTemplate d.print))
        fun fault => frame.raiseFrom line (.notLoaded d.print) fault.failure)) :
          Eval (Option Template)) w = frame.raiseFrom line (.notLoaded d.print) f w' := by
      rw [← raiseFrom_bind]
      exact Step.bind_of_eq (Step.tryCatch_of_error task)
    rw [raised]
    refine (Step.tryCatch_of_error (Step.bind_error.2 (.inl task))).trans ?_
    rcases Environment.loadTemplate_error.1 loaded with ⟨failed, rfl⟩ | ⟨source, given, failed⟩
    · rw [failed]
      dsimp only
      split <;> rfl
    -- a template that is there but cannot be made is not missing
    · obtain ⟨-, built, -⟩ := Environment.load_error.1 failed
      simp only [given, Environment.build_saysMissing hg built, Bool.and_false]
      rfl

/-! ## Several candidates -/

/-- What comes of leaves: the first that is not missing is taken. -/
def pick (frame : Frame) (line : Int) (leaves : List Datum) (otherwise : Eval (Option Template)) :
    Eval (Option Template) :=
  match leaves.find? fun leaf => !frame.missing leaf with
  | some leaf => frame.taken line leaf
  | none => otherwise

/-- What comes of candidates that have all been passed over. -/
def exhausted (frame : Frame) (ignoreMissing : Bool) (line : Int) (tried : List String) :
    Eval (Option Template) :=
  if ignoreMissing then return none
  else frame.raise line (.noneOf (String.intercalate ", " tried)) (some .nothingFound)

theorem pick_of_split {before after : List Datum} (skipped : ∀ l ∈ before, frame.missing l = true)
    (known : frame.missing leaf = false) (otherwise : Eval (Option Template)) :
    frame.pick line (before ++ leaf :: after) otherwise = frame.taken line leaf := by
  rw [pick, find?_eq_some_iff_append.2
    ⟨by simpa using known, before, after, rfl, by simpa using skipped⟩]

theorem pick_of_missing {leaves : List Datum} (skipped : ∀ l ∈ leaves, frame.missing l = true)
    (otherwise : Eval (Option Template)) : frame.pick line leaves otherwise = otherwise := by
  rw [pick, find?_eq_none.2 (by simpa using skipped)]

theorem resolve_leaf (hg : frame.env.registry.grammar.Sound) (alone : d.candidates? = none) :
    frame.resolve true line d w = frame.pick line [d] (pure none) w := by
  rw [resolve_alone hg true alone, pick, find?_singleton]
  cases frame.missing d <;> rfl

-- a list of candidates, and all lists inside it, are passed over as one leaf would be
mutual

theorem resolve_leaves (hg : frame.env.registry.grammar.Sound) (d : Datum) :
    frame.resolve true line d w = frame.pick line d.leaves (pure none) w := by
  cases d with
  | list items | tuple items =>
    rw [resolve]
    exact resolveFirst_leaves hg true [] items
  | _ => exact resolve_leaf hg rfl

theorem resolveFirst_leaves (hg : frame.env.registry.grammar.Sound) (ignoreMissing : Bool)
    (tried : List String) (ds : List Datum) :
    frame.resolveFirst ignoreMissing line tried ds w = frame.pick line (Datum.leavesOf ds)
      (frame.exhausted ignoreMissing line (tried ++ ds.map Datum.print)) w := by
  cases ds with
  | nil =>
    rw [resolveFirst, map_nil, append_nil]
    rfl
  | cons d ds =>
    have here := resolve_leaves hg d
    rw [resolveFirst, Datum.leavesOf]
    unfold pick at here ⊢
    rw [find?_append]
    cases found : d.leaves.find? fun leaf => !frame.missing leaf with
    | none =>
      rw [found] at here
      rw [Step.bind_of_ok here, Option.none_or]
      refine (resolveFirst_leaves hg ignoreMissing _ ds).trans ?_
      rw [append_assoc, map_cons]
      rfl
    | some leaf =>
      rw [found] at here
      obtain ⟨x, given⟩ := frame.taken_some line leaf
      refine (Step.bind_of_eq here).trans ?_
      simp only [given, Option.some_or, bind_assoc]
      rfl

end

/-- The first candidate that is not missing is taken, whether or not missing ones may be ignored. -/
theorem resolve_of_split (hg : frame.env.registry.grammar.Sound) (ignoreMissing : Bool)
    {before after : List Datum} (split : d.leaves = before ++ leaf :: after)
    (skipped : ∀ l ∈ before, frame.missing l = true) (known : frame.missing leaf = false) :
    frame.resolve ignoreMissing line d w = frame.taken line leaf w := by
  cases d with
  | list | tuple =>
    rw [resolve, resolveFirst_leaves hg, ← pick_of_split skipped known _, ← split]
    rfl
  | _ =>
    rcases append_eq_singleton_iff.1 split.symm with ⟨rfl, same⟩ | ⟨-, none⟩
    · cases same
      rw [resolve_alone hg ignoreMissing rfl, known, Bool.and_false]
      rfl
    · cases none

/-- **The first candidate that exists is taken.**  Of a value with any lists and tuples in it, the
leaves are looked at from left to right. Those that the source of templates does not know are passed
over, and change nothing. The first other one decides: it is taken, be it that it gives a template or
that it fails, and what comes after it is not looked at.

If all leaves are missing, there is no template if that may be ignored. Else the failure has the
given line: it names all candidates of a list, or the one name there is. -/
theorem resolveValue_first (frame : Frame) (hg : frame.env.registry.grammar.Sound) (v : Value)
    (line : Int) (w : World) :
    (∀ before leaf after, (w.store.view v).leaves = before ++ leaf :: after →
      (∀ l ∈ before, frame.missing l = true) → frame.missing leaf = false → ∀ ignoreMissing,
        frame.resolveValue v ignoreMissing line w = frame.taken line leaf w) ∧
    ((∀ l ∈ (w.store.view v).leaves, frame.missing l = true) →
      frame.resolveValue v true line w = .ok none w ∧
      (∀ items, (w.store.view v).candidates? = some items →
        frame.resolveValue v false line w = .error ⟨.raised
          (.noneOf (String.intercalate ", " (items.map Datum.print))) frame.template.name line
          (some .nothingFound), 0⟩ w) ∧
      ((w.store.view v).candidates? = none →
        frame.resolveValue v false line w = frame.taken line (w.store.view v) w)) := by
  have seen (ignoreMissing : Bool) : frame.resolveValue v ignoreMissing line w =
      frame.resolve ignoreMissing line (w.store.view v) w := Step.bind_of_ok rfl
  simp only [seen]
  generalize w.store.view v = d
  refine ⟨fun before leaf after split skipped known ignoreMissing => ?_, fun skipped => ⟨?_, ?_, ?_⟩⟩
  · exact resolve_of_split hg ignoreMissing split skipped known
  · rw [resolve_leaves hg, pick_of_missing skipped]
    rfl
  · intro items several
    have listed : frame.resolve false line d = frame.resolveFirst false line [] items ∧
        d.leaves = Datum.leavesOf items := by
      cases d with
      | list | tuple =>
        cases several
        rw [resolve]
        exact ⟨rfl, rfl⟩
      | _ => cases several
    rw [listed.1, resolveFirst_leaves hg, ← listed.2, pick_of_missing skipped]
    rfl
  · exact fun alone => resolve_alone hg false alone

/-- Two names are not known, one of them in a tuple of its own; the third is taken. -/
theorem resolveValue_first_nested :
    let env := Environment.ofCore {}
      (fun name => if name = "page" then .ok "" else .error (.notFound name)) ⟨#[]⟩
    let frame := env.frame "" ⟨"main", "", .skip, none, 0, 0, []⟩ 0 []
    frame.env.registry.grammar.Sound ∧
      frame.resolveValue (.tuple [.tuple [.text "a"], .tuple [], .text "b", .text "page", .text "c"])
        false 3 World.start = frame.taken 3 (.text "page") World.start := by
  intro env frame
  refine ⟨Registry.grammar_core_sound, ?_⟩
  refine (resolveValue_first frame Registry.grammar_core_sound _ 3 World.start).1
    [.text "a", .text "b"] (.text "page") [.text "c"] rfl ?_ rfl false
  simp only [forall_mem_cons]
  exact ⟨rfl, rfl, forall_mem_nil _⟩

end Frame
end Stencil
