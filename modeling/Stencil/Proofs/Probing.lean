import Stencil.Attribute

/-!
# Methods that are chosen can be called

Which method an attribute stands for is found out by asking methods of several names whether they
take the arguments. Asking and calling find the shape of each argument in different ways, which come
to the same (`Host.Method.probedShape_eq`, `Host.Method.calledShape_eq`): a parameter of its own, or
else what the method says of all further arguments. So a method that has been chosen fails only by
itself, and the first that can be chosen is the one that is called
(`Attribute.ofMethod_calls_first`).
-/

namespace Stencil

namespace Host

namespace Method

variable (m : Method) (i : Nat)

def shapeAt : Option Shape := (m.parameters[i]?).or m.rest

theorem inputs_of_fixed (none : m.rest = none) : m.inputs = m.parameters.map .one := by
  rw [inputs, none]
  exact List.append_nil _

theorem inputs_of_rest {shape : Shape} (some : m.rest = some shape) :
    m.inputs = m.parameters.map .one ++ [.rest shape] := by
  rw [inputs, some]
  rfl

theorem probedShape_eq : m.probedShape i = m.shapeAt i := by
  unfold probedShape fixed shapeAt
  cases rest : m.rest with
  | none =>
    rw [m.inputs_of_fixed rest]
    rcases Nat.lt_or_ge i m.parameters.length with inside | outside
    · have same : min i (m.parameters.length - 1) = i := by omega
      simp [same, inside, Nat.not_le.2 inside, Input.whole?]
    · cases m.parameters[min i (m.parameters.length - 1)]? <;> simp [outside, Input.element?]
  | some shape =>
    rw [m.inputs_of_rest rest]
    rcases Nat.lt_or_ge i m.parameters.length with inside | outside
    · have same : min i m.parameters.length = i := by omega
      simp [same, inside, Nat.not_le.2 inside, List.getElem?_append_left, Input.whole?]
    · simp [outside, Input.element?]

theorem calledShape_eq : m.calledShape i = m.shapeAt i := by
  unfold calledShape shapeAt
  cases rest : m.rest with
  | none =>
    rw [m.inputs_of_fixed rest]
    cases found : m.parameters[i]? <;> simp [found, Input.whole?]
  | some shape =>
    rw [m.inputs_of_rest rest]
    rcases Nat.lt_or_ge i m.parameters.length with inside | outside
    · simp [inside, Nat.not_le.2 inside, List.getElem?_append_left, Input.whole?]
    · simp [outside, Input.element?]

end Method

variable {h : Host} {m : Method} {args : List Plain}

/-- **A method that takes the arguments fails only by itself.** -/
theorem call_of_accepts (taken : h.accepts m args = true) (receiver : Object) :
    ∃ fitted, h.fitFrom m.shapeAt 0 args = some fitted ∧
      h.call receiver m args = (m.run h.field? receiver fitted).mapError .thrown := by
  have probed : m.probedShape = m.shapeAt := funext m.probedShape_eq
  have called : m.calledShape = m.shapeAt := funext m.calledShape_eq
  rw [accepts, Bool.and_eq_true, probed] at taken
  obtain ⟨fitted, fits⟩ := Option.isSome_iff_exists.1 taken.2
  refine ⟨fitted, fits, ?_⟩
  have count : ¬(if m.rest.isSome then args.length < m.inputs.length - 1
      else args.length ≠ m.inputs.length) := by
    have enough := taken.1
    unfold Method.counts Method.fixed at enough
    cases rest : m.rest.isSome with
    | true | false => simpa [rest] using enough
  rw [call, if_neg count, called, fits]

/-- What is found at the least depth is declared by some part. -/
theorem declared_of_shallowest {α : Type} {declared? : Part → Option α} {depth : Nat}
    {parts : List Part} {a : α} (found : h.shallowest declared? depth parts = some a) :
    ∃ p, declared? p = some a := by
  induction depth generalizing parts with
  | zero => cases found
  | succ depth ih =>
    rw [shallowest] at found
    split at found
    · exact ih found
    · next single =>
      obtain ⟨p, -, declared⟩ := List.mem_filterMap.1 (single ▸ List.mem_cons_self)
      exact ⟨p, Option.some.inj found ▸ declared⟩
    · cases found

theorem name_of_method? {o receiver : Object} {name : String}
    (found : h.method? o name = some (receiver, m)) : m.name = name := by
  obtain ⟨p, declared⟩ := declared_of_shallowest (Option.join_eq_some_iff.1 found)
  unfold methodOf? at declared
  split at declared
  · next own =>
    cases declared
    exact eq_of_beq (List.find?_eq_some_iff_append.1 own).1
  · obtain ⟨_, _, other⟩ := Option.map_eq_some_iff.1 declared
    cases other

end Host

namespace Attribute

/-- What becomes of the results of a method or of its error. -/
def outcome (name : String) : Except String (List Plain) → Act Found
  | .ok results => return .value (← Act.ofResults results)
  | .error text => return .failed (.plain text) name

/-- The names of methods that are tried, in this order. -/
def candidates (key : String) : List String :=
  [key, Text.camel key, "Get" ++ Text.camel key, "Is" ++ Text.camel key, "Has" ++ Text.camel key]

variable (h : Host) (o : Object) (key : String) (args : List Datum)

/-- No method of a name takes the arguments, and that can be found out. -/
def Unfit (name : String) : Prop :=
  ∀ receiver m, h.method? o name = some (receiver, m) →
    h.stalls m args = false ∧ h.accepts m (args.map Datum.toPlain) = false

/-- A name that is tried twice is as good as tried once. -/
theorem findSome?_candidates {α : Type} (f : String → Option α) :
    (candidates key).findSome? f = (methodNames key).findSome? f := by
  unfold candidates methodNames memberNames
  dsimp only
  split
  · next same =>
    rw [eq_of_beq same]
    cases found : f key <;> simp [List.findSome?_cons, found]
  · rfl

theorem stalls_candidates : stalls h o args (candidates key) = stalls h o args (methodNames key) := by
  have twice (name : String) (names : List String) :
      stalls h o args (name :: name :: names) = stalls h o args (name :: names) := by
    cases found : h.method? o name with
    | none => simp only [stalls, found]
    | some pair =>
      simp only [stalls, found]
      cases h.stalls pair.2 args <;> cases h.accepts pair.2 (args.map Datum.toPlain) <;> rfl
  unfold candidates methodNames memberNames
  dsimp only
  split
  · next same =>
    rw [eq_of_beq same]
    exact twice key _
  · rfl

variable {h o args}

theorem Unfit.skipped {name : String} (unfit : Unfit h o args name) :
    (do let (receiver, m) ← h.method? o name
        if h.accepts m (args.map Datum.toPlain) then return (receiver, m) else none :
      Option (Object × Host.Method)) = none := by
  cases found : h.method? o name with
  | none => rfl
  | some pair => exact if_neg (by rw [(unfit pair.1 pair.2 found).2]; decide)

theorem stalls_of_unfit {before : List String} (unfit : ∀ other ∈ before, Unfit h o args other)
    (rest : List String) : stalls h o args (before ++ rest) = stalls h o args rest := by
  induction before with
  | nil => rfl
  | cons name names ih =>
    obtain ⟨first, others⟩ := List.forall_mem_cons.1 unfit
    rw [List.cons_append, stalls]
    split
    · exact ih others
    · next found =>
      obtain ⟨comesOut, refused⟩ := first _ _ found
      rw [comesOut, refused, ih others]
      rfl

/-- **The first method that takes the arguments is called, and no other.**  A method that takes the
arguments is given them in the shapes of its parameters, so that any failure is its own. Of the
methods with the names that stand for an attribute, the first that takes the arguments decides what
becomes of it, and if there is none the attribute is missing. If nothing comes of asking a method before
that, nothing comes of the attribute. -/
theorem ofMethod_calls_first (h : Host) (o : Object) (key : String) (args : List Datum) (otherwise : Raised) :
    (∀ receiver m plain, h.accepts m plain = true → ∃ fitted, h.fitFrom m.shapeAt 0 plain = some fitted ∧
      h.call receiver m plain = (m.run h.field? receiver fitted).mapError .thrown) ∧
    (∀ before name after receiver m, candidates key = before ++ name :: after →
      (∀ other ∈ before, Unfit h o args other) → h.method? o name = some (receiver, m) →
      (h.stalls m args = true → ofMethod h o key args otherwise = throw .stuck) ∧
      (h.stalls m args = false → h.accepts m (args.map Datum.toPlain) = true →
        ∃ fitted, h.fitFrom m.shapeAt 0 (args.map Datum.toPlain) = some fitted ∧
          ofMethod h o key args otherwise = outcome name (m.run h.field? receiver fitted))) ∧
    ((∀ name ∈ candidates key, Unfit h o args name) →
      ofMethod h o key args otherwise = pure (.missing otherwise)) := by
  refine ⟨fun receiver m plain taken => Host.call_of_accepts taken receiver, ?_, fun unfit => ?_⟩
  · intro before name after receiver m split unfit found
    -- The methods before this one are passed over, so all is up to this one.
    have asked : stalls h o args (methodNames key) = (h.stalls m args ||
        (!h.accepts m (args.map Datum.toPlain) && stalls h o args after)) := by
      rw [← stalls_candidates, split, stalls_of_unfit unfit, stalls, found]
    refine ⟨fun stalled => ?_, fun comesOut taken => ?_⟩
    · rw [ofMethod, if_pos (by rw [asked, stalled]; rfl)]
    · obtain ⟨fitted, fits, called⟩ := Host.call_of_accepts taken receiver
      refine ⟨fitted, fits, ?_⟩
      have chosen : method? h o key (args.map Datum.toPlain) = some (receiver, m) := by
        rw [method?, ← findSome?_candidates, List.findSome?_eq_some_iff]
        refine ⟨before, name, after, split, ?_, fun other earlier => (unfit other earlier).skipped⟩
        rw [found]
        exact if_pos taken
      rw [ofMethod, if_neg (by rw [asked, comesOut, taken]; exact Bool.false_ne_true), chosen]
      simp only [called, ← Host.name_of_method? found]
      cases m.run h.field? receiver fitted <;> rfl
  · have none : method? h o key (args.map Datum.toPlain) = none := by
      rw [method?, ← findSome?_candidates, List.findSome?_eq_none_iff]
      exact fun name tried => (unfit name tried).skipped
    have asked : stalls h o args (methodNames key) = false := by
      rw [← stalls_candidates, ← List.append_nil (candidates key), stalls_of_unfit unfit]
      rfl
    rw [ofMethod, if_neg (by rw [asked]; decide), none]

/-- A label built on two records that both have a method `Name`, which are in each other's way, with a
method `GetName` of its own that takes any number of texts. -/
def labels : Host :=
  ⟨#[⟨.record [⟨"First", .record ⟨1, "First", "", .never⟩, true⟩,
        ⟨"Second", .record ⟨2, "Second", "", .never⟩, true⟩],
      [⟨"GetName", [], some .text, fun _ _ args => .ok [.int args.length]⟩]⟩,
    ⟨.record [], [⟨"Name", [], none, fun _ _ _ => .ok []⟩]⟩,
    ⟨.record [], [⟨"Name", [], none, fun _ _ _ => .ok []⟩]⟩]⟩

theorem ofMethod_calls_first_label :
    let label : Object := ⟨0, "Label", "", .never⟩
    labels.accepts ⟨"GetName", [], some .text, fun _ _ args => .ok [.int args.length]⟩ [] = true ∧
      ofMethod labels label "name" [] (.missingMember "name" "Label") = outcome "GetName" (.ok [.int 0]) := by
  intro label
  have unfit : ∀ other ∈ ["name", "Name"], Unfit labels label [] other := by
    intro other earlier receiver m found
    rcases List.mem_cons.1 earlier with rfl | earlier
    · exact absurd (found : none = some (receiver, m)) (Option.some_ne_none _).symm
    · obtain rfl := List.mem_singleton.1 earlier
      exact absurd (found : none = some (receiver, m)) (Option.some_ne_none _).symm
  obtain ⟨fitted, fits, called⟩ := ((ofMethod_calls_first labels label "name" []
    (.missingMember "name" "Label")).2.1 ["name", "Name"] "GetName" ["IsName", "HasName"] _ _ (by decide)
      unfit rfl).2 rfl rfl
  cases fits
  exact ⟨rfl, called⟩

end Attribute
end Stencil
