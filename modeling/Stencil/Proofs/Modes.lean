import Stencil.Proofs.Defined

/-!
# One search for an attribute in three modes

An attribute is asked for strictly, leniently, or with the question whether it is there. All three
are the same search, and differ only in what becomes of a search that finds nothing.

What could set them apart is a method that is called on the way. `Attribute.CallFails` says when one
is called and fails, in terms of the object, the item and the arguments alone, and
`Attribute.search_ends` says that this is when the search ends in a failure.

A search may also come to nothing at all, which no mode makes up for. `Attribute.Hopeless` lists the
cases: the item contains itself and has no name; a field is found in a record that is not there; an
argument contains itself or is too short for an array; or a method of `Container.pairing` is called on a
set without the other container (`Container.stuck_iff`).
-/

namespace Stencil

open Step List
open Node (Access)

theorem Step.get_self {ε σ : Type} (s : σ) : (MonadState.get : EStateM ε σ σ) s = .ok s s := rfl

/-! ## Methods of containers come to an end -/

namespace Container

abbrev Told (f : Failure) : Prop := f.isStuck = false

/-- The methods of a set that need another container. -/
def pairing : List String :=
  ["difference", "intersection", "issubset", "issuperset", "symmetric_difference"]

variable {α : Type} {name : String} {wants : List Arguments.Want} {f : Failure} {v : Value}
  {m : Method}

theorem failsIn_named (name : String) (act : Act α) : FailsIn Told (named name act) := by
  intro s e s' h
  obtain ⟨f, s₁, -, thrown⟩ := tryCatch_error.1 h
  cases thrown
  rfl

theorem failsIn_complain (text : String) : FailsIn Told (Act.complain text : Act α) := by
  intro s e s' h
  cases h
  rfl

theorem failsIn_ofExcept {x : Except Failure α} (h : ∀ f, x = .error f → Told f) :
    FailsIn Told (Act.ofExcept x) := by
  intro s e s' thrown
  cases x with
  | ok a => cases thrown
  | error _ =>
    cases thrown
    exact h _ rfl

theorem checkFrom_told {i : Nat} {args : List Value}
    (h : Arguments.checkFrom name i wants args = .error f) : Told f := by
  induction wants generalizing i args with
  | nil => simp [Arguments.checkFrom] at h
  | cons w ws ih =>
    cases args with
    | nil => simp [Arguments.checkFrom] at h
    | cons v vs =>
      rw [Arguments.checkFrom] at h
      split at h
      · cases h
        rfl
      · exact ih h

theorem positional_told {least : Nat} {args : List Value}
    (h : Arguments.positional name least wants args = .error f) : Told f := by
  rw [Arguments.positional] at h
  split at h
  · cases h
    rfl
  · split at h
    · cases h
      rfl
    · exact checkFrom_told h

theorem failsIn_positional (name : String) (least : Nat) (wants : List Arguments.Want)
    (args : List Value) :
    FailsIn Told (Act.ofExcept (Arguments.positional name least wants args)) :=
  failsIn_ofExcept fun _ => positional_told

theorem failsIn_fixed (name : String) (count : Nat) {run : List Value → Act Value}
    (h : ∀ args, FailsIn Told (run args)) (args : List Value) :
    FailsIn Told (fixed name count run args) :=
  (failsIn_positional _ _ _ _).bind fun _ => h args

theorem failsIn_listItems (r : Nat) : FailsIn Told (Act.listItems r) := fun s e s' h => by cases h

theorem failsIn_clear (ref : TableRef) :
    FailsIn Told (Act.alter ref fun t => (t.clear, none)) := fun s e s' h => by cases h

theorem failsIn_newListOf (r : Nat) (items : Entries → List Value) :
    FailsIn Told (do Act.newList (items (← Act.dictEntries r))) := fun s e s' h => by cases h

theorem failsIn_listMethods (r : Nat) (args : List Value) :
    ∀ m ∈ listMethods r, FailsIn Told (m.2 args) := by
  simp only [listMethods, forall_mem_cons]
  refine ⟨failsIn_fixed _ _ (fun _ => failsIn_named _ _) args,
    failsIn_fixed _ _ (fun _ => failsIn_named _ _) args, ?_, ?_, ?_, ?_,
    failsIn_fixed _ _ (fun _ => failsIn_named _ _) args, forall_mem_nil _⟩
  · exact (failsIn_positional _ _ _ _).bind fun _ => FailsIn.get.bind fun _ => failsIn_named _ _
  · exact (failsIn_positional _ _ _ _).bind fun _ => failsIn_named _ _
  · refine (failsIn_positional _ _ _ _).bind fun _ => ?_
    split
    · exact (failsIn_listItems _).bind fun _ => failsIn_named _ _
    · exact .pure _
  · exact (failsIn_positional _ _ _ _).bind fun _ => failsIn_named _ _

theorem failsIn_dictMethods (r : Nat) (args : List Value) :
    ∀ m ∈ dictMethods r, FailsIn Told (m.2 args) := by
  simp only [dictMethods, forall_mem_cons]
  refine ⟨failsIn_fixed _ _ (fun _ => (failsIn_clear _).bind fun _ => .pure _) args, ?_,
    failsIn_fixed _ _ (fun _ => failsIn_newListOf _ _) args,
    failsIn_fixed _ _ (fun _ => failsIn_newListOf _ _) args, ?_,
    failsIn_fixed _ _ (fun _ => failsIn_named _ _) args, ?_, ?_,
    failsIn_fixed _ _ (fun _ => failsIn_newListOf _ _) args,
    forall_mem_nil _⟩
  · refine (failsIn_positional _ _ _ _).bind fun _ => (failsIn_named _ _).bind fun found => ?_
    cases found <;> exact .pure _
  · exact (failsIn_positional _ _ _ _).bind fun _ => failsIn_named _ _
  · exact (failsIn_positional _ _ _ _).bind fun _ => failsIn_named _ _
  · show FailsIn Told (dictUpdate r args)
    rw [dictUpdate.eq_def]
    split
    · exact .pure _
    · exact failsIn_named _ _
    · exact failsIn_named _ _
    · exact failsIn_complain _

theorem failsIn_setItem (name : String) (run : Value → Act Unit) (args : List Value) :
    FailsIn Told (setItem name run args) :=
  failsIn_fixed _ _ (fun _ => (failsIn_named _ _).bind fun _ => .pure _) args

theorem failsIn_setWith (r : Nat) (name : String) (make : Table → List Value → Act Value)
    {args : List Value} (given : args ≠ []) : FailsIn Told (setWith r name make args) := by
  refine (failsIn_positional _ _ _ _).bind fun _ => ?_
  cases args with
  | nil => exact absurd rfl given
  | cons v vs => exact FailsIn.get.bind fun _ => failsIn_named _ _

theorem failsIn_setMethods (r : Nat) (args : List Value) :
    ∀ m ∈ setMethods r, m.1 ∉ pairing ∨ args ≠ [] → FailsIn Told (m.2 args) := by
  simp only [setMethods, forall_mem_cons]
  refine ⟨fun _ => failsIn_setItem _ _ _,
    fun _ => failsIn_fixed _ _ (fun _ => (failsIn_clear _).bind fun _ => .pure _) args, ?_,
    fun _ => failsIn_setItem _ _ _, ?_, ?_, ?_,
    fun _ => failsIn_fixed _ _ (fun _ => failsIn_named _ _) args, fun _ => failsIn_setItem _ _ _, ?_,
    fun _ => failsIn_named _ _, fun _ => failsIn_named _ _, forall_mem_nil _⟩
  all_goals exact fun h => failsIn_setWith _ _ _ (h.resolve_left (by decide))

/-- Something comes of every method of a container but those of sets that need another container and
have not got one. -/
theorem told_of_method (found : method? v name = some m) {args : List Value}
    (fed : ∀ r, v = .set r → name ∉ pairing ∨ args ≠ []) : FailsIn Told (m args) := by
  cases v with
  | list r => exact failsIn_listMethods r args _ (mem_of_lookup found)
  | dict r => exact failsIn_dictMethods r args _ (mem_of_lookup found)
  | set r => exact failsIn_setMethods r args _ (mem_of_lookup found) (fed r rfl)
  | _ => cases found

/-- Nothing comes of a method just when it is one of a set that needs another container and has not
got one. -/
theorem stuck_iff (found : method? v name = some m) {args : List Value} {s : Store} :
    (∃ f s', m args s = .error f s' ∧ f.isStuck = true) ↔ (∃ r, v = .set r) ∧ name ∈ pairing ∧
      args = [] := by
  constructor
  · rintro ⟨f, s', failed, stuck⟩
    refine Classical.byContradiction fun fed => ?_
    have told : Told f := told_of_method found
      (fun r hr => Classical.not_and_iff_not_or_not.1 fun h => fed ⟨⟨r, hr⟩, h.1, h.2⟩) s f s' failed
    simp [told] at stuck
  · rintro ⟨⟨r, rfl⟩, hname, rfl⟩
    simp only [pairing, mem_cons, not_mem_nil, or_false] at hname
    rcases hname with rfl | rfl | rfl | rfl | rfl
    all_goals
      cases found
      exact ⟨_, _, rfl, rfl⟩

end Container

/-! ## Methods on the way to an attribute -/

namespace Attribute

variable {host : Host} {s s' : Store} {object item : Value} {args : List Value} {access : Access}

def Probes (s : Store) (object item : Value) : Access → Prop
  | .any => item? s object item = none
  | .key => False
  | .method => True

/-- A method of an object or a container is called on the way to an attribute, and fails. -/
inductive CallFails (host : Host) (s : Store) (item : Value) (args : List Value)
    (access : Access) : Value → Prop
  | ofObject {handle : Nat} {o receiver : Object} {m : Host.Method} {e : Host.CallFailure}
    (probes : Probes s (.object handle o) item access)
    (bare : access = .method ∨ field? host o (s.view item).print = none)
    (found : method? host o (s.view item).print ((args.map s.view).map Datum.toPlain) =
      some (receiver, m))
    (failed : host.call receiver m ((args.map s.view).map Datum.toPlain) = .error e) :
    CallFails host s item args access (.object handle o)
  | ofContainer {v : Value} {m : Container.Method} {f : Failure} {s' : Store}
    (probes : Probes s v item access)
    (called : access = .method ∨ isLoose v = true ∧ args ≠ [])
    (found : Container.method? v (s.view item).print = some m) (failed : m args s = .error f s') :
    CallFails host s item args access v

/-- A method of a set that needs another container is called without one. -/
structure Unfed (s : Store) (object item : Value) (args : List Value) (access : Access) : Prop where
  called : access = .method
  bare : args = []
  needs : (s.view item).print ∈ Container.pairing
  ofSet : ∃ r, object = .set r

/-- Nothing comes of a search. -/
inductive Hopeless (host : Host) (s : Store) (item : Value) (args : List Value)
    (access : Access) : Value → Prop
  | unending {v : Value} (h : (s.view item).endless false = true) : Hopeless host s item args access v
  | unfed {v : Value} (h : Unfed s v item args access) : Hopeless host s item args access v
  | lost {handle : Nat} {o : Object} {p : Plain} (probes : Probes s (.object handle o) item access)
    (read : access ≠ .method) (found : field? host o (s.view item).print = some (p, false)) :
    Hopeless host s item args access (.object handle o)
  | stalled {handle : Nat} {o : Object} (probes : Probes s (.object handle o) item access)
    (bare : access = .method ∨ field? host o (s.view item).print = none)
    (stalls : stalls host o (args.map s.view) (methodNames (s.view item).print) = true) :
    Hopeless host s item args access (.object handle o)

abbrev place (template : String) (options : Options) (host : Host) : Scope :=
  ⟨template, options, host, Container.method?⟩

section Printed

variable (ends : (s.view item).endless false = false)

include ends

theorem search_eq (scope : Scope) : search scope object item args access s =
    (if access == .method then searchMember scope object (s.view item).print args access
      else match item? s object item with
        | some v => return .value v
        | none =>
          if access == .key then return .missing (missingKey s object (s.view item).print)
          else searchMember scope object (s.view item).print args access) s := by
  have printed : Act.print item s = .ok (s.view item).print s := by
    rw [Act.print_eq, if_neg (Bool.eq_false_iff.1 ends)]
  unfold search
  exact (bind_of_ok printed).trans (bind_of_ok (get_self s))

theorem search_of_probes (scope : Scope) (h : Probes s object item access) :
    search scope object item args access s =
      searchMember scope object (s.view item).print args access s := by
  rw [search_eq ends]
  cases access with
  | any => simp [show item? s object item = none from h]
  | key => exact h.elim
  | method => rfl

theorem search_of_not_probes (scope : Scope) (args : List Value)
    (h : ¬Probes s object item access) :
    ∃ found, search scope object item args access s = .ok found s ∧
      ∀ cause member, found ≠ .failed cause member := by
  rw [search_eq ends]
  cases there : item? s object item with
  | none =>
    cases access with
    | any => exact absurd there h
    | key => exact ⟨_, rfl, nofun⟩
    | method => exact absurd trivial h
  | some v =>
    cases access with
    | any | key => exact ⟨_, rfl, nofun⟩
    | method => exact absurd trivial h

end Printed

section Members

variable (key : String) (otherwise : Raised)

variable {o : Object} {data : List Datum} {v : Value} {m : Container.Method}

section Asked

variable (asked : stalls host o data (methodNames key) = false)

include asked

theorem ofMethod_eq : ofMethod host o key data otherwise =
    match method? host o key (data.map Datum.toPlain) with
    | none => return .missing otherwise
    | some (receiver, m) =>
      match host.call receiver m (data.map Datum.toPlain) with
      | .ok results => return .value (← Act.ofResults results)
      | .error e => return .failed (.plain e.message) m.name := by
  unfold ofMethod
  refine (if_neg (by rw [asked]; exact Bool.false_ne_true)).trans ?_
  cases method? host o key (data.map Datum.toPlain) with
  | none => rfl
  | some method =>
    obtain ⟨receiver, m⟩ := method
    cases called : host.call receiver m (data.map Datum.toPlain) with
    | _ => simp only [called]

theorem ofMethod_ends (s : Store) :
    ∃ found s', ofMethod host o key data otherwise s = .ok found s' := by
  have never : FailsIn (fun _ => False) (ofMethod host o key data otherwise) := by
    rw [ofMethod_eq key otherwise asked]
    split
    · exact .pure _
    · split
      · exact (Act.failsIn_ofResults _).bind fun _ => .pure _
      · exact .pure _
  cases answer : ofMethod host o key data otherwise s with
  | ok found s' => exact ⟨found, s', rfl⟩
  | error f s' => exact (never _ _ _ answer).elim

theorem ofMethod_failed_iff :
    (∃ cause member s', ofMethod host o key data otherwise s = .ok (.failed cause member) s') ↔ ∃
      receiver m e, method? host o key (data.map Datum.toPlain) = some (receiver, m) ∧
      host.call receiver m (data.map Datum.toPlain) = .error e := by
  rw [ofMethod_eq key otherwise asked]
  cases found : method? host o key (data.map Datum.toPlain) with
  | none => simp [pure_ok]
  | some method =>
    obtain ⟨receiver, m⟩ := method
    dsimp only
    cases answer : host.call receiver m (data.map Datum.toPlain) with
    | error e => exact ⟨fun _ => ⟨receiver, m, e, rfl, answer⟩, fun _ => ⟨_, _, s, rfl⟩⟩
    | ok results =>
      constructor
      · rintro ⟨cause, member, s', done⟩
        obtain ⟨v, s₁, -, done⟩ := bind_ok.1 done
        cases done
      · rintro ⟨receiver', m', e, same, failed⟩
        cases same
        cases answer.symm.trans failed

end Asked

theorem ofObject_bare (data : List Datum) (bare : access = .method ∨ field? host o key = none) :
    ofObject host o key data access otherwise = ofMethod host o key data otherwise := by
  unfold ofObject
  rcases bare with rfl | missing
  · rfl
  · rw [missing]
    cases access with
    | _ => rfl

theorem ofObject_lost (data : List Datum) {p : Plain} (read : access ≠ .method)
    (found : field? host o key = some (p, false)) :
    ofObject host o key data access otherwise = throw .stuck := by
  unfold ofObject
  rw [found]
  cases access with
  | method => exact absurd rfl read
  | _ => rfl

theorem ofObject_field (data : List Datum)
    (bare : ¬(access = .method ∨ field? host o key = none))
    (there : ∀ p, access ≠ .method → field? host o key ≠ some (p, false)) :
    ∃ p : Plain, ofObject host o key data access otherwise = do return .value (← p.toValue) := by
  obtain ⟨read, found⟩ := not_or.1 bare
  obtain ⟨⟨p, reached⟩, found⟩ := Option.ne_none_iff_exists'.1 found
  cases reached with
  | false => exact absurd found (there p read)
  | true =>
    unfold ofObject
    rw [found]
    cases access with
    | method => exact absurd rfl read
    | _ => exact ⟨p, rfl⟩

section Object

variable (asked : access = .method ∨ field? host o key = none →
    stalls host o data (methodNames key) = false)
  (there : ∀ p, access ≠ .method → field? host o key ≠ some (p, false))

include asked there

theorem ofObject_ends (s : Store) :
    ∃ found s', ofObject host o key data access otherwise s = .ok found s' := by
  by_cases bare : access = .method ∨ field? host o key = none
  · rw [ofObject_bare _ _ data bare]
    exact ofMethod_ends key otherwise (asked bare) s
  · obtain ⟨p, found⟩ := ofObject_field key otherwise data bare there
    rw [found]
    have never : FailsIn (fun _ => False) (do return Found.value (← p.toValue) : Act Found) :=
      (Plain.failsIn_toValue p).bind fun _ => .pure _
    cases answer : (do return Found.value (← p.toValue) : Act Found) s with
    | ok found s' => exact ⟨found, s', rfl⟩
    | error f s' => exact (never _ _ _ answer).elim

theorem ofObject_failed_iff :
    (∃ cause member s', ofObject host o key data access otherwise s = .ok (.failed cause member)
        s') ↔ (access = .method ∨ field? host o key = none) ∧ ∃ receiver m e, method? host o key
      (data.map Datum.toPlain) = some (receiver, m) ∧
      host.call receiver m (data.map Datum.toPlain) = .error e := by
  by_cases bare : access = .method ∨ field? host o key = none
  · rw [ofObject_bare _ _ data bare, ofMethod_failed_iff key otherwise (asked bare)]
    exact (and_iff_right bare).symm
  · obtain ⟨p, found⟩ := ofObject_field key otherwise data bare there
    rw [found]
    simp only [bare, false_and, iff_false, not_exists]
    intro cause member s' done
    obtain ⟨v, s₁, -, done⟩ := bind_ok.1 done
    exact nomatch (pure_ok.1 done).1

end Object

theorem ofContainer_uncalled (called : ¬(access = .method ∨ isLoose v = true ∧ args ≠ []))
    (s : Store) :
    ∃ found s', ofContainer Container.method? v key args access otherwise s = .ok found s' ∧ ∀ cause
      member, found ≠ .failed cause member := by
  have left : ¬(access == .method || (isLoose v && !args.isEmpty)) = true := by simpa using called
  cases found : Container.method? v key with
  | none => exact ⟨.missing otherwise, s, by simp only [ofContainer, found]; rfl, nofun⟩
  | some m =>
    simp only [ofContainer, found, if_neg left]
    split
    · exact ⟨_, _, rfl, nofun⟩
    · exact ⟨_, _, rfl, nofun⟩

theorem ofContainer_answer (found : Container.method? v key = some m)
    (called : access = .method ∨ isLoose v = true ∧ args ≠ [])
    (told : ∀ f s', m args s = .error f s' → f.isStuck = false) :
    (∃ r s', m args s = .ok r s' ∧ ofContainer Container.method? v key args access otherwise s =
        .ok (.value r) s') ∨ ∃ f s', m args s = .error f s' ∧ ofContainer Container.method? v key
      args access otherwise s = .ok (.failed f key) s' := by
  have taken : (access == .method || (isLoose v && !args.isEmpty)) = true := by simpa using called
  simp only [ofContainer, found, if_pos taken]
  cases answer : m args s with
  | ok r s' =>
    have done : (do return Found.value (← m args) : Act Found) s = .ok (.value r) s' :=
      bind_ok.2 ⟨r, s', answer, rfl⟩
    exact .inl ⟨r, s', rfl, tryCatch_of_ok done⟩
  | error f s' =>
    have broken : (do return Found.value (← m args) : Act Found) s = .error f s' :=
      bind_error.2 (.inl answer)
    refine .inr ⟨f, s', rfl, ?_⟩
    rw [tryCatch_of_error broken, if_neg (by simp [told f s' answer])]
    rfl

end Members

theorem container_ends {v : Value} {otherwise : Raised} (probes : Probes s v item access)
    (noObject : ∀ handle o, v ≠ .object handle o) (fed : ¬Unfed s v item args access) :
    ∃ found s', ofContainer Container.method? v (s.view item).print args access otherwise s =
      .ok found s' ∧ ((∃ cause member, found = .failed cause member) ↔
        CallFails host s item args access v) := by
  by_cases called : access = .method ∨ isLoose v = true ∧ args ≠ []
  · cases found : Container.method? v (s.view item).print with
    | none =>
      refine ⟨.missing otherwise, s, by simp only [ofContainer, found]; rfl, ?_⟩
      refine iff_of_false nofun ?_
      rintro (_ | ⟨-, -, found', -⟩)
      · exact absurd rfl (noObject _ _)
      · cases found.symm.trans found'
    | some m =>
      -- only a method of a set that lacks its argument gets stuck
      have told : ∀ f s', m args s = .error f s' → f.isStuck = false := by
        intro f s' failed
        refine Bool.eq_false_iff.2 fun stuck => fed ?_
        obtain ⟨ofSet, needs, bare⟩ := (Container.stuck_iff found).1 ⟨f, s', failed, stuck⟩
        exact ⟨called.resolve_right fun h => h.2 bare, bare, needs, ofSet⟩
      rcases ofContainer_answer _ otherwise found called told with
        ⟨r, s', answer, done⟩ | ⟨f, s', answer, done⟩
      · refine ⟨_, s', done, iff_of_false nofun ?_⟩
        rintro (_ | ⟨-, -, found', failed⟩)
        · exact absurd rfl (noObject _ _)
        · cases found.symm.trans found'
          cases answer.symm.trans failed
      · exact ⟨_, s', done, iff_of_true ⟨f, _, rfl⟩ (.ofContainer probes called found answer)⟩
  · obtain ⟨found, s', done, other⟩ :=
      ofContainer_uncalled (s.view item).print otherwise called s
    refine ⟨found, s', done, iff_of_false (fun ⟨cause, member, same⟩ => other cause member same) ?_⟩
    rintro (_ | ⟨-, called', -, -⟩)
    · exact absurd rfl (noObject _ _)
    · exact absurd called' called

theorem not_callFails {v : Value} (noObject : ∀ handle o, v ≠ .object handle o)
    (none : ∀ key, Container.method? v key = none) : ¬CallFails host s item args access v := by
  rintro (_ | ⟨-, -, found, -⟩)
  · exact absurd rfl (noObject _ _)
  · rw [none] at found
    cases found

/-- A search of which something can come to an end, and ends in a failure just when a method is
called and fails. -/
theorem search_ends (template : String) (options : Options) (host : Host)
    (hopeful : ¬Hopeless host s item args access object) :
    ∃ found s', search (place template options host) object item args access s = .ok found s' ∧
      ((∃ cause member, found = .failed cause member) ↔
        CallFails host s item args access object) := by
  have ends : (s.view item).endless false = false :=
    Bool.eq_false_iff.2 fun unending => hopeful (.unending unending)
  have fed : ¬Unfed s object item args access := fun unfed => hopeful (.unfed unfed)
  by_cases probes : Probes s object item access
  · rw [search_of_probes ends _ probes]
    cases object with
    | object handle o =>
      show ∃ found s', ofObject host o _ _ access _ s = .ok found s' ∧ _
      have asked (bare : access = .method ∨ field? host o (s.view item).print = none) :
          stalls host o (args.map s.view) (methodNames (s.view item).print) = false :=
        Bool.eq_false_iff.2 fun stalls => hopeful (.stalled probes bare stalls)
      have there (p : Plain) (read : access ≠ .method) :
          field? host o (s.view item).print ≠ some (p, false) :=
        fun found => hopeful (.lost probes read found)
      obtain ⟨found, s', answer⟩ := ofObject_ends (s.view item).print
        (.missingMember (s.view item).print (Value.object handle o).typeName) asked there s
      refine ⟨found, s', answer, ?_, ?_⟩
      · rintro ⟨cause, member, rfl⟩
        obtain ⟨bare, receiver, m, e, found, failed⟩ :=
          (ofObject_failed_iff _ _ asked there).1 ⟨cause, member, s', answer⟩
        exact .ofObject probes bare found failed
      · rintro (⟨-, bare, known, failed⟩ | ⟨-, -, known, -⟩)
        · obtain ⟨cause, member, s₁, done⟩ :=
            (ofObject_failed_iff _ _ asked there).2 ⟨bare, _, _, _, known, failed⟩
          cases answer.symm.trans done
          exact ⟨cause, member, rfl⟩
        · cases known
    | list | dict | set | tuple | method => exact container_ends probes nofun fed
    | _ => exact ⟨_, _, rfl, iff_of_false nofun (not_callFails nofun fun _ => rfl)⟩
  · obtain ⟨found, searched, other⟩ :=
      search_of_not_probes ends (place template options host) args probes
    refine ⟨found, s, searched,
      iff_of_false (fun ⟨cause, member, same⟩ => other cause member same) ?_⟩
    rintro (⟨probes', -, -, -⟩ | ⟨probes', -, -, -⟩) <;> exact absurd probes' probes

/-- A method that gets stuck takes the search with it. -/
theorem ofContainer_stuck {v : Value} {key : String} {m : Container.Method} {f : Failure}
    (found : Container.method? v key = some m) (failed : m args s = .error f s')
    (stuck : f.isStuck = true) (otherwise : Raised) :
    ofContainer Container.method? v key args .method otherwise s = .error f s' := by
  have broken : (do return Found.value (← m args) : Act Found) s = .error f s' :=
    bind_error.2 (.inl failed)
  have called : ofContainer Container.method? v key args .method otherwise =
      tryCatch (do return Found.value (← m args)) fun f =>
        if f.isStuck then throw f else return .failed f key := by
    simp only [ofContainer, found]
    exact if_pos rfl
  rw [called, tryCatch_of_error broken, if_pos stuck]
  rfl

/-- Nothing comes of a hopeless search, indeed. -/
theorem search_stuck (template : String) (options : Options) {host : Host}
    (hopeless : Hopeless host s item args access object) :
    ∃ s', search (place template options host) object item args access s = .error .stuck s' := by
  cases ends : (s.view item).endless false with
  | true =>
    have unprinted : Act.print item s = .error .stuck s := by rw [Act.print_eq, if_pos ends]
    exact ⟨s, bind_of_error unprinted⟩
  | false =>
    cases hopeless with
    | unending unending =>
      rw [ends] at unending
      cases unending
    | unfed unfed =>
      obtain ⟨rfl, rfl, needs, r, rfl⟩ := unfed
      have probes : Probes s (.set r) item .method := trivial
      rw [search_of_probes ends _ probes]
      have known : ∃ m, Container.method? (.set r) (s.view item).print = some m := by
        simp only [Container.pairing, mem_cons, not_mem_nil, or_false] at needs
        rcases needs with name | name | name | name | name
        all_goals
          rw [name]
          exact ⟨_, rfl⟩
      obtain ⟨m, found⟩ := known
      obtain ⟨f, s', failed, stuck⟩ := (Container.stuck_iff found).2 ⟨⟨r, rfl⟩, needs, rfl⟩
      obtain rfl : f = .stuck := by
        cases f with
        | stuck => rfl
        | _ => cases stuck
      exact ⟨s', ofContainer_stuck found failed rfl _⟩
    | @lost handle o p probes read found =>
      rw [search_of_probes ends _ probes]
      show ∃ s', ofObject host o _ _ access _ s = .error .stuck s'
      rw [ofObject_lost _ _ _ read found]
      exact ⟨s, rfl⟩
    | @stalled handle o probes bare stalls =>
      rw [search_of_probes ends _ probes]
      show ∃ s', ofObject host o _ _ access _ s = .error .stuck s'
      rw [ofObject_bare _ _ _ bare, ofMethod, if_pos stalls]
      exact ⟨s, rfl⟩

/-! ## The three modes -/

section Outcomes

variable {scope : Scope} {lenient : Bool} {line : Int} {s₁ : Store}

theorem getAttribute_probe : scope.getAttribute object item args access true lenient line =
    get scope object item args access .probe line := rfl

theorem getAttribute_strict (h : scope.options.strictVariables = true) :
    scope.getAttribute object item args access false false line =
      get scope object item args access .strict line := by
  simp [Scope.getAttribute, Scope.mode, h]

theorem getAttribute_lenient (h : (lenient || !scope.options.strictVariables) = true) :
    scope.getAttribute object item args access false lenient line =
      get scope object item args access .lenient line := by
  rw [Scope.getAttribute, Scope.mode, if_neg Bool.false_ne_true, if_pos h]

theorem get_of_value {v : Value} (mode : Mode)
    (searched : search scope object item args access s = .ok (.value v) s₁) :
    get scope object item args access mode line s =
      .ok (if mode = .probe then .bool true else v) s₁ := by
  rw [get, bind_of_ok searched]
  cases mode <;> rfl

theorem get_of_failed {cause : Failure} {member : String} {mode : Mode} (asked : mode ≠ .probe)
    (searched : search scope object item args access s = .ok (.failed cause member) s₁) :
    get scope object item args access mode line s =
      .error (.raised (.thrownByMethod member object.typeName) scope.template line (some cause))
        s₁ := by
  rw [get, bind_of_ok searched]
  cases mode with
  | probe => exact absurd rfl asked
  | _ => rfl

theorem get_of_missing {reason : Raised}
    (searched : search scope object item args access s = .ok (.missing reason) s₁) :
    get scope object item args access .strict line s =
        .error (.raised reason scope.template line none) s₁ ∧
      get scope object item args access .lenient line s = .ok .null s₁ := by
  rw [get, get, bind_of_ok searched, bind_of_ok searched]
  exact ⟨rfl, rfl⟩

theorem probe_of_not_value {found : Found} (other : ∀ v, found ≠ .value v)
    (searched : search scope object item args access s = .ok found s₁) :
    get scope object item args access .probe line s = .ok (.bool false) s₁ := by
  rw [get, bind_of_ok searched]
  cases found with
  | value v => exact absurd rfl (other v)
  | _ => rfl

end Outcomes

/-- **One search, three modes.**  Take any object, item, arguments and way of access. Where nothing can
come of the search, nothing comes of it in any mode. Otherwise:

* The question whether the attribute is there has an answer, which is the same whatever is strict.
* The answer is yes just when the strict search finds a value.
* What the strict search finds, the lenient one finds, too.
* When the strict search fails, the lenient one gives null; but if it is a method that was called and
  has failed, the lenient search fails in the same way. -/
theorem modes_agree (template : String) (host : Host) (object item : Value) (args : List Value)
    (access : Access) (line : Int) (s : Store) :
    (Hopeless host s item args access object → ∀ options defined lenient, ∃ s',
      (place template options host).getAttribute object item args access defined lenient line s =
        .error .stuck s') ∧
    (¬Hopeless host s item args access object → ∃ b s₁,
      (∀ options lenient, (place template options host).getAttribute object item args access true
        lenient line s = .ok (.bool b) s₁) ∧
      ∀ strict : Options, strict.strictVariables = true →
        (b = true ↔ ∃ v s', (place template strict host).getAttribute object item args access false
          false line s = .ok v s') ∧
        ∀ (options : Options) (lenient : Bool), (lenient || !options.strictVariables) = true →
          (∀ v s', (place template strict host).getAttribute object item args access false false line
              s = .ok v s' →
            (place template options host).getAttribute object item args access false lenient line s =
              .ok v s') ∧
          ∀ f s', (place template strict host).getAttribute object item args access false false line
              s = .error f s' →
            (CallFails host s item args access object →
              (place template options host).getAttribute object item args access false lenient line
                s = .error f s') ∧
            (¬CallFails host s item args access object →
              (place template options host).getAttribute object item args access false lenient line
                s = .ok .null s')) := by
  refine ⟨fun hopeless options defined lenient => ?_, fun hopeful => ?_⟩
  · obtain ⟨s', stuck⟩ := search_stuck template options hopeless
    exact ⟨s', bind_of_error stuck⟩
  obtain ⟨found, s₁, searched, failing⟩ := search_ends template {} host hopeful
  -- What is strict plays no part in the search itself.
  have everywhere : ∀ options, search (place template options host) object item args access s =
      .ok found s₁ := fun _ => searched
  simp only [getAttribute_probe]
  cases found with
  | value v =>
    refine ⟨true, s₁, fun options _ => get_of_value _ (everywhere options), fun strict h => ?_⟩
    rw [getAttribute_strict h, get_of_value _ (everywhere strict)]
    refine ⟨iff_of_true rfl ⟨v, s₁, rfl⟩, fun options lenient h => ?_⟩
    rw [getAttribute_lenient h, get_of_value _ (everywhere options)]
    exact ⟨fun _ _ done => done, nofun⟩
  | failed cause member =>
    refine ⟨false, s₁, fun options _ => probe_of_not_value (by exact nofun) (everywhere options),
      fun strict h => ?_⟩
    rw [getAttribute_strict h, get_of_failed (by decide) (everywhere strict)]
    refine ⟨iff_of_false nofun nofun, fun options lenient h => ?_⟩
    rw [getAttribute_lenient h, get_of_failed (by decide) (everywhere options)]
    have broken := failing.1 ⟨cause, member, rfl⟩
    exact ⟨nofun, fun _ _ done => ⟨fun _ => done, fun kept => absurd broken kept⟩⟩
  | missing reason =>
    refine ⟨false, s₁, fun options _ => probe_of_not_value (by exact nofun) (everywhere options),
      fun strict h => ?_⟩
    rw [getAttribute_strict h, (get_of_missing (everywhere strict)).1]
    refine ⟨iff_of_false nofun nofun, fun options lenient h => ?_⟩
    rw [getAttribute_lenient h, (get_of_missing (everywhere options)).2]
    refine ⟨nofun, fun f s' done => ?_⟩
    cases done
    exact ⟨fun broken => (failing.2 broken).elim nofun, fun _ => rfl⟩

def shelf : Store := ⟨#[⟨[], 0⟩], #[], #[.ready [(.int 1, .null)]], 0, 0⟩

/-- Nothing can be taken out of an empty list: the question is answered with no, and the lenient
search fails like the strict one. -/
theorem modes_agree_pop :
    ¬Hopeless .empty shelf (.text "pop") [] .method (.list 0) ∧
      (∀ options lenient, (place "page" options .empty).getAttribute (.list 0) (.text "pop") []
        .method true lenient 1 shelf = .ok (.bool false) shelf) ∧
      ∃ f, (place "page" { strictVariables := true } .empty).getAttribute (.list 0) (.text "pop") []
          .method false false 1 shelf = .error f shelf ∧
        (place "page" { strictVariables := false } .empty).getAttribute (.list 0) (.text "pop") []
          .method false false 1 shelf = .error f shelf := by
  have hopeful : ¬Hopeless .empty shelf (.text "pop") [] .method (.list 0) := by
    rintro (unending | unfed)
    · cases unending
    · obtain ⟨r, same⟩ := unfed.ofSet
      cases same
  have fails : CallFails .empty shelf (.text "pop") [] .method (.list 0) :=
    .ofContainer trivial (.inl rfl) rfl rfl
  obtain ⟨b, s₁, probed, agree⟩ :=
    (modes_agree "page" .empty (.list 0) (.text "pop") [] .method 1 shelf).2 hopeful
  obtain ⟨asked, lenient⟩ := agree { strictVariables := true } rfl
  refine ⟨hopeful, fun options lenient => ?_, _, rfl, ?_⟩
  · cases b with
    | false => cases probed {} false; exact probed options lenient
    | true =>
      obtain ⟨v, s', found⟩ := asked.1 rfl
      cases found
  · exact ((lenient { strictVariables := false } false rfl).2 _ _ rfl).1 fails

end Attribute
end Stencil
