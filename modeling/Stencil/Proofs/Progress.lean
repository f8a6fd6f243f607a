import Stencil.Proofs.Outline

/-!
# A parse gets on

An end token is never left, so what a parse still has before it are the tokens up to the next one:
`ParseState.untilEnd` counts them. A reader of expressions that comes to something has passed one of
them at least, the first token of its first operand.

A tag passes the end of its last delimiter at least. That is an outline of a parse
(`Outline.getsOn`): behind an opening delimiter there are at least two more tokens to pass before the
next statement, behind the name of a tag at least one.

The tag `extends` asks that no block is open and that there is no parent yet, and nothing else: it may
stand in the body of a loop, a branch or an assignment. `ParseState.extendsAhead` counts these tags, and
`Outline.counting` says that each one that is passed sets a parent. So a body inside a block that is
read to its end has none in it, however its tags are nested, and there is never a second one
(`Parse.statements_parent`).
-/

namespace Stencil

open Parse

/-! ## The tokens before the end -/

namespace ParseState

variable {s s' : ParseState}

/-- How many tokens there are before the next end token. -/
def untilEnd (s : ParseState) : Nat :=
  (s.stream.ahead.takeWhile fun t => t.kind != .endOfTemplate).length

theorem untilEnd_pass (h : s.stream.current.kind ≠ .endOfTemplate) : s.untilEnd = s.pass.untilEnd + 1 := by
  rw [untilEnd, TokenStream.ahead_advance h, List.takeWhile_cons_of_pos (by simpa using h)]
  rfl

theorem untilEnd_of_walk (walk : Walk s s') : s'.untilEnd ≤ s.untilEnd := by
  induction walk with
  | refl _ => exact Nat.le_refl _
  | step inner _ ih =>
    have passed := untilEnd_pass (Token.ne_end_of_isInner inner)
    omega

end ParseState

/-- A step comes to something and leaves fewer tokens before the end, or complains about the template. -/
def Parse.GetsOn {α : Type} (x : Parse α) (s : ParseState) : Prop :=
  (∃ a s', x s = .ok (a, s') ∧ s'.untilEnd < s.untilEnd) ∨
    ∃ reason line, x s = .error (.malformed reason s.stream.template line)

variable {s : ParseState} {p p' : Spot} {d d' : Due}

theorem Scene.GoesOn.getsOn {b : Scene} {α : Type} {Q : α → Prop} {x : Parse α}
    (h : b.Goes s.stream.remaining true Q x) (hs : b.Holds s) : GetsOn x s := by
  have walked := h s hs (Nat.le_refl _) trivial
  unfold GetsOn
  generalize x s = ended at walked ⊢
  cases walked with
  | error _ _ => exact .inr ⟨_, _, rfl⟩
  | ok _ _ far =>
    obtain ⟨inner, rest⟩ := far rfl
    have passed := ParseState.untilEnd_pass (Token.ne_end_of_isInner inner)
    have further := ParseState.untilEnd_of_walk rest
    exact .inl ⟨_, _, rfl, by omega⟩

/-! ## Tags -/

/-- How many tokens have been passed since an opening delimiter, at least. -/
def Spot.passed : Spot → Nat
  | .start => 0
  | .inside _ => 1
  | .outside => 2

theorem Passes.passed_le (h : Passes s p d p' d') : p'.passed ≤ p.passed + 1 := by
  cases h <;> simp [Spot.passed]

def Outline.getsOn (v : Vocabulary) (tokens : List Token) (bound : Nat) : Outline v tokens where
  state p _ _ s := s.untilEnd + p.passed ≤ bound
  stray := True
  misplaced _ _ := trivial
  perm _ h := h
  gather _ h := h
  spread _ h := h
  drop h := h
  pass how h := by
    have passed := ParseState.untilEnd_pass how.kind_ne
    have further := how.passed_le
    omega
  opened _ _ _ _ h := h
  closed _ _ _ h := h
  extended _ _ h := h

def Outline.extendedBy (v : Vocabulary) (tokens : List Token) (parent : Node) : Outline v tokens where
  state _ d _ s := s.parent = some parent ∧ d ≠ .parent
  stray := True
  misplaced _ _ := trivial
  perm _ h := h
  gather _ h := h
  spread _ h := h
  drop h := h
  pass how h := by
    refine ⟨h.1, ?_⟩
    cases how with
    | text | print | tag | inner | closer => exact h.2
    | head =>
      unfold Due.of
      split <;> decide
    | headExtends _ _ _ single => cases single.symm.trans h.1
    | entered => decide
  opened _ _ _ _ h := ⟨h.1, by decide⟩
  closed _ _ _ h := ⟨h.1, by decide⟩
  extended _ _ h := absurd rfl h.2

/-- How many tags `extends` there are: names behind an opening delimiter. -/
def Token.extendsTags : List Token → Nat
  | start :: head :: tokens =>
    (start.kind == .blockStart && head.kind == .name && head.value == "extends").toNat +
      extendsTags (head :: tokens)
  | _ => 0

namespace ParseState

def extendsAhead (s : ParseState) : Nat := Token.extendsTags s.stream.ahead

/-- Whether the current token is the name of the tag `extends`, once an opening delimiter is passed. -/
def headsExtends (s : ParseState) : Spot → Bool
  | .start => s.stream.current.kind == .name && s.stream.current.value == "extends"
  | _ => false

theorem extendsAhead_pass (notEnd : s.stream.current.kind ≠ .endOfTemplate) :
    s.extendsAhead = (s.stream.current.kind == .blockStart && s.pass.headsExtends .start).toNat +
      s.pass.extendsAhead := by
  have ahead : s.stream.ahead = s.stream.current :: s.pass.stream.ahead := TokenStream.ahead_advance notEnd
  rw [extendsAhead, extendsAhead, ahead, TokenStream.ahead_eq_cons s.pass.stream]
  simp only [Token.extendsTags, headsExtends, Bool.and_assoc]

theorem extendsAhead_inside (notEnd : s.stream.current.kind ≠ .endOfTemplate)
    (other : s.stream.current.kind ≠ .blockStart) : s.extendsAhead = s.pass.extendsAhead := by
  rw [extendsAhead_pass notEnd, beq_false_of_ne other]
  exact Nat.zero_add _

end ParseState

theorem Due.of_ne_parent (word : String) : Due.of word ≠ .parent := by
  unfold Due.of
  split <;> decide

/-- Every tag `extends` that has been passed has set a parent, or is about to. -/
def Outline.counting (v : Vocabulary) (tokens : List Token) (total : Nat) : Outline v tokens where
  state p d _ s := s.extendsAhead + (s.headsExtends p).toNat + (d == .parent).toNat +
    s.parent.isSome.toNat = total ∧ (d = .parent → s.parent = none) ∧ p ≠ .inside .blockStart
  stray := True
  misplaced _ _ := trivial
  perm _ h := h
  gather _ h := h
  spread _ h := h
  drop h := h
  pass := by
    intro p d p' d' ns s how h
    obtain ⟨count, single, outer⟩ := h
    have notEnd := how.kind_ne
    have passed := ParseState.extendsAhead_pass notEnd
    cases how with
    | tag kind =>
      rw [passed, kind] at count
      refine ⟨?_, single, nofun⟩
      rw [← count, Nat.add_comm (Bool.toNat _)]
      rfl
    | text kind | print kind =>
      rw [ParseState.extendsAhead_inside notEnd (by rw [kind]; decide)] at count
      exact ⟨count, single, nofun⟩
    | entered kind =>
      rw [ParseState.extendsAhead_inside notEnd (by rw [kind]; decide)] at count
      exact ⟨count, nofun, nofun⟩
    | inner kind =>
      rw [ParseState.extendsAhead_inside notEnd fun is => by rw [is] at kind; cases kind] at count
      exact ⟨count, single, outer⟩
    | closer kind =>
      rw [ParseState.extendsAhead_inside notEnd fun is => outer (by rw [← kind, is])] at count
      exact ⟨count, single, nofun⟩
    | head kind word =>
      have other : s.stream.current.kind ≠ .blockStart := by rw [kind]; decide
      have plain : s.headsExtends .start = false := by simp [ParseState.headsExtends, word]
      rw [ParseState.extendsAhead_inside notEnd other, plain] at count
      have due := Due.of_ne_parent s.stream.current.value
      refine ⟨?_, fun is => absurd is due, nofun⟩
      rw [beq_false_of_ne due]
      exact count
    | headExtends kind word _ none =>
      have other : s.stream.current.kind ≠ .blockStart := by rw [kind]; decide
      have heads : s.headsExtends .start = true := by simp [ParseState.headsExtends, kind, word]
      rw [ParseState.extendsAhead_inside notEnd other, heads] at count
      exact ⟨count, fun _ => none, nofun⟩
  opened _ _ _ _ h := ⟨h.1, nofun, h.2.2⟩
  closed _ _ _ h := ⟨h.1, nofun, h.2.2⟩
  extended := by
    intro ns s parent _ _ h
    obtain ⟨count, single, outer⟩ := h
    refine ⟨?_, nofun, outer⟩
    rw [single rfl] at count
    exact count

namespace Parse

/-- What the tags of bodies read with that nest at most `depth` deep. -/
def hooksOf (g : Grammar) (depth : Nat) : Hooks :=
  ⟨g.vocabulary, expression g.vocabulary, fun stop => statements g depth (some stop)⟩

variable {g : Grammar} (core : ∀ tag ∈ g.tags, tag ∈ coreTags)

include core

theorem hooked_hooksOf {tokens : List Token} (o : Outline g.vocabulary tokens) (name : String)
    (depth : Nat) : o.Hooked name depth (hooksOf g depth) :=
  ⟨fun k _ precedence => (o.scene k).walks_expression precedence, fun _ _ stop fits plain =>
    o.leads_statements core (fun _ is => Option.some.inj is ▸ plain : ∀ st, some stop = some st → _) rfl
      fits⟩

variable {s : ParseState}

/-- **A tag gets on** behind its name. -/
theorem getsOn_tag {tag : Tag} (h : tag ∈ coreTags) {depth : Nat} (deep : s.stream.remaining ≤ depth + 1)
    (start : s.stream.current.kind = .blockStart) (named : s.pass.stream.current.kind = .name)
    (word : s.pass.stream.current.value = tag.name) :
    GetsOn (tag.parse (hooksOf g depth) s.pass.stream.current) s.pass.pass := by
  let o : Outline g.vocabulary s.stream.tokens.toList := .getsOn _ _ s.pass.untilEnd
  have started : s.stream.current.kind ≠ .endOfTemplate := by rw [start]; decide
  have site : s.pass.stream.current.Heads s.stream.tokens.toList tag.name := by
    refine ⟨⟨s.stream.current, start, ?_⟩, named, word⟩
    have ahead : s.stream.ahead = s.stream.current :: s.pass.stream.ahead :=
      TokenStream.ahead_advance started
    rw [TokenStream.ahead_eq_cons s.pass.stream] at ahead
    refine List.IsInfix.trans ?_ (List.drop_suffix s.stream.position _).isInfix
    rw [show s.stream.tokens.toList.drop s.stream.position = s.stream.ahead from rfl, ahead]
    exact ⟨[], _, rfl⟩
  have here : Outline.After s.stream.tokens.toList s.stream.template s s := ⟨rfl, rfl, Nat.le_refl _⟩
  have headed : o.Headed ⟨s.openBlocks, s.parent.isSome, s.pass.stream.remaining⟩ []
      s.pass.stream.current s.pass.pass :=
    ⟨s.pass, rfl, rfl, rfl, fun _ => rfl, Nat.le_refl _, Nat.le_refl _⟩
  have fits : s.pass.stream.remaining ≤ depth := by
    rw [ParseState.remaining_pass started] at deep
    exact Nat.le_of_succ_le_succ deep
  have ended := Outline.coreTags_leads (hooked_hooksOf core o s.stream.template depth) fits h site
    s.pass.pass here.pass.self.pass.self headed
  have template : s.pass.pass.stream.template = s.stream.template := here.pass.self.pass.template
  unfold GetsOn
  generalize tag.parse (hooksOf g depth) s.pass.stream.current s.pass.pass = answer at ended ⊢
  cases ended with
  | error _ _ => exact .inr ⟨_, _, by rw [template]⟩
  | @ok result h =>
    have left : result.2.untilEnd + 2 ≤ s.pass.untilEnd := h.1.2.state
    have passed := ParseState.untilEnd_pass (s := s.pass) (by rw [named]; decide)
    exact .inl ⟨_, _, rfl, by omega⟩

/-- **A parse comes to its end.**  Whatever the tokens are, it comes to a module or to a complaint about
the template, and is never stuck. An expression, arguments, targets or a tag, too, come to a complaint,
or they are read and there are fewer tokens before the end; the bodies of a tag may be nested as deep as
there are tokens. -/
theorem getsOn_everywhere :
    (∀ stream, (∃ module, tree g stream = .ok module) ∨
      ∃ reason line, tree g stream = .error (.malformed reason stream.template line)) ∧
    (∀ s : ParseState, (∀ precedence, GetsOn (expression g.vocabulary precedence) s) ∧
      GetsOn (arguments (expression g.vocabulary)) s ∧ GetsOn targets s) ∧
    ∀ tag ∈ coreTags, ∀ (depth : Nat) (s : ParseState), s.stream.remaining ≤ depth + 1 →
      s.stream.current.kind = .blockStart →
      s.pass.stream.current.kind = .name → s.pass.stream.current.value = tag.name →
      GetsOn (tag.parse (hooksOf g depth) s.pass.stream.current) s.pass.pass := by
  refine ⟨fun stream => ?_, fun s => ?_, fun tag h depth s deep => getsOn_tag core h deep⟩
  · have ended := (Outline.any g.vocabulary _).tree_ends core rfl stream rfl trivial
    generalize tree g stream = answer at ended
    cases ended with
    | ok h => exact .inl ⟨_, rfl⟩
    | error _ _ => exact .inr ⟨_, _, rfl⟩
  · let b : Scene := ⟨g.vocabulary, s.stream.tokens.toList, s.block⟩
    have here : b.Holds s := ⟨rfl, rfl⟩
    exact ⟨fun precedence => (b.walks_expression precedence).getsOn here,
      (Scene.walks_arguments fun precedence => b.walks_expression precedence).getsOn here,
      b.walks_targets.getsOn here⟩

/-- `["a",` before an end token that is not the last one. -/
def openArray : ParseState :=
  ⟨.ofTokens #[⟨.punctuation, "[", 1⟩, ⟨.string, "a", 1⟩, ⟨.punctuation, ",", 1⟩,
    ⟨.endOfTemplate, "", 1⟩, ⟨.punctuation, "]", 1⟩, ⟨.endOfTemplate, "", 1⟩] "t", [], [], none⟩

omit core in
theorem getsOn_everywhere_array :
    ∃ reason line, expression ⟨[], [], [], [], []⟩ 0 openArray = .error (.malformed reason "t" line) := by
  have refused : (expression ⟨[], [], [], [], []⟩ 0 openArray).isOk = false := by decide +kernel
  rcases ((getsOn_everywhere (g := ⟨⟨[], [], [], [], []⟩, coreTags⟩) fun _ h => h).2.1 openArray).1 0
    with ⟨a, s', read, -⟩ | complaint
  · rw [read] at refused
    cases refused
  · exact complaint

/-! ## Parents -/

variable {depth : Nat} (deep : s.stream.remaining ≤ depth) {stop : Stop} (plain : "extends" ∉ stop.names)

include deep plain

theorem statements_ends (o : Outline g.vocabulary s.stream.tokens.toList)
    (begun : o.state .outside .nothing [] s) :
    Ends (Scene.Line ⟨g.vocabulary, s.stream.tokens.toList, none⟩) o.stray s.stream.template
      (fun r => o.Stopped stop ⟨s.openBlocks, s.parent.isSome, depth⟩ [r.1] r.2)
      (statements g depth (some stop) s) := by
  have here : Outline.After s.stream.tokens.toList s.stream.template s s := ⟨rfl, rfl, Nat.le_refl _⟩
  have start : o.At ⟨s.openBlocks, s.parent.isSome, depth⟩ .outside .nothing [] s :=
    ⟨rfl, fun _ => rfl, deep, begun⟩
  have ended := o.leads_statements core (fun _ is => Option.some.inj is ▸ plain :
    ∀ st, some stop = some st → _) rfl (Nat.le_refl depth) s here start
  exact ended.mono (fun _ => id) fun _ h => h.1.2

variable {s' : ParseState} {body : Node} (read : statements g depth (some stop) s = .ok (body, s'))

include read

theorem stopped_of_read (o : Outline g.vocabulary s.stream.tokens.toList)
    (begun : o.state .outside .nothing [] s) :
    ∃ p d, o.At ⟨s.openBlocks, s.parent.isSome, depth⟩ p d [body] s' ∧ d ≠ .parent ∧
      s'.headsExtends p = false := by
  have ended := statements_ends core deep plain o begun
  rw [read] at ended
  cases ended with
  | ok h =>
    have stopped : o.Stopped stop ⟨s.openBlocks, s.parent.isSome, depth⟩ [body] s' := h
    unfold Outline.Stopped at stopped
    split at stopped
    · obtain ⟨word, -, there⟩ := stopped
      exact ⟨_, _, there, Due.of_ne_parent word, rfl⟩
    · obtain ⟨there, -, known⟩ := stopped
      refine ⟨_, _, there, nofun, ?_⟩
      have other : s'.stream.current.value ≠ "extends" := fun is => plain (is ▸ known)
      simp [ParseState.headsExtends, other]

theorem extendsAhead_of_read :
    s'.extendsAhead + s'.parent.isSome.toNat = s.extendsAhead + s.parent.isSome.toNat := by
  obtain ⟨p, d, there, due, heads⟩ := stopped_of_read core deep plain read (.counting _ _
    (s.extendsAhead + s.parent.isSome.toNat)) ⟨rfl, nofun, nofun⟩
  have count := there.state.1
  rw [heads, beq_false_of_ne due] at count
  exact count

theorem parent_of_read (inside : s.openBlocks ≠ [] ∨ s.parent.isSome = true) :
    s'.parent = s.parent := by
  cases parent : s.parent with
  | some n =>
    obtain ⟨_, _, kept, -, -⟩ := stopped_of_read core deep plain read (.extendedBy _ _ n)
      ⟨parent, by decide⟩
    exact kept.state.1
  | none =>
    obtain ⟨_, _, kept, -, -⟩ := stopped_of_read core deep plain read (.any _ _) trivial
    rw [parent] at inside
    have same : s'.parent.isSome = s.parent.isSome :=
      kept.extending (inside.resolve_right Bool.false_ne_true)
    rw [parent] at same
    exact Option.not_isSome_iff_eq_none.1 (by rw [same]; exact Bool.false_ne_true)

omit read

/-- **The parent of a template is set outside its blocks.** A body is refused with a complaint about
the template, or is read to its end, and then every tag `extends` in it, however deep, has set a parent,
which there was not before. While a block is open, or when there is a parent already, a body that is
read to its end has no such tag. -/
theorem statements_parent :
    (∃ reason line, statements g depth (some stop) s =
      .error (.malformed reason s.stream.template line)) ∨
    ∃ body s', statements g depth (some stop) s = .ok (body, s') ∧
      s.extendsAhead + s.parent.isSome.toNat = s'.extendsAhead + s'.parent.isSome.toNat ∧
      (s.openBlocks ≠ [] ∨ s.parent.isSome = true →
        s'.extendsAhead = s.extendsAhead ∧ s'.parent = s.parent) := by
  have ended := statements_ends core deep plain (.any _ _) trivial
  cases read : statements g depth (some stop) s with
  | error f =>
    rw [read] at ended
    cases ended with
    | error _ _ => exact .inl ⟨_, _, rfl⟩
  | ok result =>
    obtain ⟨body, s'⟩ := result
    have count := extendsAhead_of_read core deep plain read
    refine .inr ⟨body, s', rfl, count.symm, fun inside => ?_⟩
    have same := parent_of_read core deep plain read inside
    rw [same] at count
    exact ⟨Nat.add_right_cancel count, same⟩

omit core deep plain

/-- A body up to the tag that ends it: `{% if "a" %}{% extends "b" %}{% endif %}`. -/
def conditionalParent (stop : String) (opened : List String) : ParseState :=
  ⟨.ofTokens #[⟨.blockStart, "", 1⟩, ⟨.name, "if", 1⟩, ⟨.string, "a", 1⟩, ⟨.blockEnd, "", 1⟩,
    ⟨.blockStart, "", 1⟩, ⟨.name, "extends", 1⟩, ⟨.string, "b", 1⟩, ⟨.blockEnd, "", 1⟩,
    ⟨.blockStart, "", 1⟩, ⟨.name, "endif", 1⟩, ⟨.blockEnd, "", 1⟩,
    ⟨.blockStart, "", 1⟩, ⟨.name, stop, 1⟩] "t", [], opened, none⟩

/-- The body is refused inside a block, and sets the parent inside a capture. -/
theorem statements_parent_conditional :
    (∃ reason line, statements ⟨⟨[], [], [], [], []⟩, coreTags⟩ 20 (some ⟨["endblock"], true⟩)
      (conditionalParent "endblock" ["c"]) = .error (.malformed reason "t" line)) ∧
    ∃ body s', statements ⟨⟨[], [], [], [], []⟩, coreTags⟩ 20 (some ⟨["endset"], true⟩)
      (conditionalParent "endset" []) = .ok (body, s') ∧
      1 = s'.extendsAhead + s'.parent.isSome.toNat := by
  have core : ∀ tag ∈ (⟨⟨[], [], [], [], []⟩, coreTags⟩ : Grammar).tags, tag ∈ coreTags := fun _ h => h
  have refused : (statements ⟨⟨[], [], [], [], []⟩, coreTags⟩ 20 (some ⟨["endblock"], true⟩)
    (conditionalParent "endblock" ["c"])).isOk = false := by decide +kernel
  have accepted : (statements ⟨⟨[], [], [], [], []⟩, coreTags⟩ 20 (some ⟨["endset"], true⟩)
    (conditionalParent "endset" [])).isOk = true := by decide +kernel
  have few (stop : String) (opened : List String) :
      (conditionalParent stop opened).stream.remaining ≤ 20 := by
    show 14 ≤ 20
    decide
  have one : (conditionalParent "endset" []).extendsAhead = 1 := by decide +kernel
  constructor
  · rcases statements_parent core (few "endblock" ["c"])
      (by decide : "extends" ∉ (⟨["endblock"], true⟩ : Stop).names) with complaint | ⟨body, s', read, -⟩
    · exact complaint
    · rw [read] at refused
      cases refused
  · rcases statements_parent core (few "endset" [])
      (by decide : "extends" ∉ (⟨["endset"], true⟩ : Stop).names) with ⟨reason, line, complaint⟩ | ⟨body, s', read, count, -⟩
    · rw [complaint] at accepted
      cases accepted
    · rw [one] at count
      exact ⟨body, s', read, count⟩

end Parse

end Stencil
