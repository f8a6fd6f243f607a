import Mathlib
import Stencil.Proofs.Guarded
import Stencil.Proofs.Loading
import Stencil.Proofs.Operations
import Stencil.Proofs.Verbatim

/-!
# Escaping keeps markup out

A template whose own text is free of markup cannot be made to show any by the values it is given, as
long as everything it prints is escaped.

What is shown comes together from texts, prints, blocks, parents and included templates. A print of
a guarded program is clean because of the filter `escape`, and everything else shows what guarded
programs show. The only state that matters is the templates that have been made: they have to be
guarded themselves, and every rendering keeps them so.
-/

namespace Stencil

open List
open Step (Fails Follows Kept Sim Tracks Yields)

/-! ## Harmless templates -/

namespace Parse

theorem bind_ok {α β : Type} {x : Parse α} {f : α → Parse β} {s s' : ParseState} {b : β}
    (h : (x >>= f) s = .ok (b, s')) : ∃ a s₁, x s = .ok (a, s₁) ∧ f a s₁ = .ok (b, s') := by
  change Except.bind (x s) (fun p => f p.1 p.2) = _ at h
  cases hx : x s with
  | error e =>
    rw [hx] at h
    cases h
  | ok p =>
    rw [hx] at h
    exact ⟨p.1, p.2, rfl, h⟩

theorem isTemplate_of_tree {g : Grammar} {stream : TokenStream} {module : Node}
    (h : tree g stream = .ok module) : module.IsTemplate := by
  unfold tree at h
  split at h
  · next n s parsed =>
    cases h
    obtain ⟨_, _, _, parsed⟩ := bind_ok parsed
    obtain ⟨body, _, _, parsed⟩ := bind_ok parsed
    obtain ⟨s, _, _, parsed⟩ := bind_ok parsed
    cases hparent : s.parent with
    | none =>
      rw [hparent] at parsed
      cases parsed
      exact ⟨_, _, _, _, rfl⟩
    | some parent =>
      rw [hparent] at parsed
      obtain ⟨_, _, _, parsed⟩ := bind_ok parsed
      cases parsed
      exact ⟨_, _, _, _, rfl⟩
  · cases h

end Parse

namespace Node

mutual

/-- Whether every text of a tree is clean and whatever it prints may be. -/
def modest : Node → Bool
  | absent => true
  | node k l t as cs =>
    (k != .text || decide (Clean ((node k l t as cs).text "data"))) &&
    (k != .print || ((node k l t as cs).child 0).printable) && allModest cs

def allModest : List Node → Bool
  | [] => true
  | n :: ns => n.modest && allModest ns

end

theorem allHarmless_of_modest {ns : List Node} (h : ∀ n ∈ ns, n.modest = true → n.harmless = true)
    (modest : allModest ns = true) : allHarmless ns = true := by
  induction ns with
  | nil => rfl
  | cons n ns ih =>
    obtain ⟨first, rest⟩ := Bool.and_eq_true_iff.1 modest
    obtain ⟨hn, hns⟩ := forall_mem_cons.1 h
    exact Bool.and_eq_true_iff.2 ⟨hn first, ih hns rest⟩

/-- The conditions of a branch stand in a body wherever a tree is well made. -/
theorem harmless_of_wellMade {last : Nat} {n : Node} (h : n.WellMade last) (modest : n.modest = true) :
    n.harmless = true := by
  induction h with
  | absent => rfl
  | @node k l t as cs complete _ _ ih =>
    obtain ⟨own, below⟩ := Bool.and_eq_true_iff.1 modest
    have branch : (k != .branch || ((node k l t as cs).child 0).kind == .body) = true := by
      by_cases is : k = .branch
      · subst is
        match cs, complete with
        | [tests, _], complete => exact (Bool.and_eq_true_iff.1 complete).1
      · simp [is]
    exact Bool.and_eq_true_iff.2 ⟨Bool.and_eq_true_iff.2 ⟨own, branch⟩, allHarmless_of_modest ih below⟩

theorem harmless_of_whole {last : Nat} {name : String} {module : Node} (h : module.Whole last name)
    (modest : module.modest = true) : module.harmless = true := by
  obtain ⟨body, parent, blocks, rfl, shown, extended, defined⟩ := h
  obtain ⟨hbody, hparent, hblocks⟩ : body.modest = true ∧ parent.modest = true ∧
      allModest blocks = true := by
    simpa [ofModule, ofBody, plain, Node.modest, allModest] using modest
  have inner := allHarmless_of_modest (fun b hb => harmless_of_wellMade (defined b hb).2) hblocks
  simpa [ofModule, ofBody, plain, harmless, allHarmless] using
    ⟨harmless_of_wellMade shown.wellMade hbody, harmless_of_wellMade extended hparent, inner⟩

end Node
namespace Environment

variable (env : Environment)

/-- The tree of a source, as it was read, shows no markup by itself. -/
def HarmlessSource (source name : String) : Prop :=
  ∀ tokens module, env.tokenize source name = .ok tokens →
    Parse.tree env.registry.grammar (TokenStream.ofTokens tokens name) = .ok module →
    module.harmless = true

variable {env} in
/-- In a tree that has been read, branches always stand as they should. -/
theorem harmlessSource_of_modest (sound : env.registry.grammar.Sound) {source name : String}
    (modest : ∀ tokens module, env.tokenize source name = .ok tokens →
      Parse.tree env.registry.grammar (TokenStream.ofTokens tokens name) = .ok module →
      module.modest = true) : env.HarmlessSource source name := by
  intro tokens module scanned read
  have placed := env.tokenize_ends source name
  rw [scanned] at placed
  cases placed with
  | ok placed =>
    have made := @Parse.tree_ends _ name _ sound (Nat.le_add_right 1 _) _ placed
    rw [read] at made
    cases made with
    | ok made => exact Node.harmless_of_whole made.1 (modest tokens module scanned read)

/-- A template is the program of a tree that shows no markup by itself and has been escaped. -/
def HarmlessTemplate (t : Template) : Prop :=
  ∃ module : Node, module.IsTemplate ∧ module.harmless = true ∧
    Program.assemble (Autoescape.apply env.options.autoescape module) t.unit = some t

/-- All templates that have been made show no markup by themselves. -/
def HarmlessWorld (w : World) : Prop :=
  ∀ unit t, w.cache.lookup unit = some t → env.HarmlessTemplate t

variable {env} {t : Template} {name source : String}

theorem HarmlessTemplate.guarded (h : env.HarmlessTemplate t) : t.Guarded := by
  obtain ⟨module, shape, harmless, made⟩ := h
  exact Program.guarded_assemble shape harmless made

theorem harmlessTemplate_of_build (on : env.options.autoescape ≠ "")
    (harmless : env.HarmlessSource source name) (built : env.build source name = .ok t) :
    env.HarmlessTemplate t := by
  obtain ⟨module, read, assembled⟩ := assembled_of_build built
  have unit := unit_of_build built
  unfold tree at read
  simp only [bind, Except.bind] at read
  split at read
  · cases read
  · next tokens scanned =>
    unfold parse at read
    simp only [bind, Except.bind] at read
    split at read
    · cases read
    · next written parsed =>
      cases read
      have nonempty : ¬ env.options.autoescape.isEmpty = true := mt String.isEmpty_iff.1 on
      rw [if_neg nonempty] at assembled
      refine ⟨written, Parse.isTemplate_of_tree parsed, harmless tokens _ scanned parsed, ?_⟩
      rw [unit]
      exact assembled

theorem load_harmless (on : env.options.autoescape ≠ "") {w w' : World}
    (hsource : env.HarmlessSource source name) (hw : env.HarmlessWorld w)
    (loaded : env.load name source w = .ok t w') :
    env.HarmlessWorld w' ∧ env.HarmlessTemplate t := by
  rcases load_ok.1 loaded with ⟨found, rfl⟩ | ⟨-, built, rfl⟩
  · exact ⟨hw, hw _ t found⟩
  · have new := harmlessTemplate_of_build on hsource built
    refine ⟨fun unit u found => ?_, new⟩
    rw [lookup_cons] at found
    split at found
    · cases found
      exact new
    · exact hw unit u found

/-- Everything that can be loaded shows no markup by itself, and what is printed is escaped. -/
structure Harmless (env : Environment) : Prop where
  on : env.options.autoescape ≠ ""
  sources : ∀ name source, env.source name = .ok source → env.HarmlessSource source name
  escape : ∀ name, name = "escape" ∨ name = "e" →
    env.registry.filters.get? name = some Language.escape

namespace Harmless

variable (henv : env.Harmless)

include henv

theorem loadTemplate (name : String) :
    Yields env.HarmlessWorld env.HarmlessTemplate (env.loadTemplate name) := by
  intro w t w' hw loaded
  obtain ⟨source, hsource, loaded⟩ := loadTemplate_ok.1 loaded
  exact load_harmless henv.on (henv.sources name source hsource) hw loaded

omit henv in
theorem loadTemplate_failed {name : String} {w w' : World} {f : Failure}
    (hw : env.HarmlessWorld w) (failed : env.loadTemplate name w = .error f w') :
    env.HarmlessWorld w' := by
  rcases loadTemplate_error.1 failed with ⟨-, rfl⟩ | ⟨source, -, failed⟩
  · exact hw
  · obtain ⟨-, -, rfl⟩ := load_error.1 failed
    exact hw

theorem parallel : env.Parallel Step.Any (Kept env.HarmlessWorld) (fun _ => False) env where
  matching :=
    { store := fun h => congrArg World.store h.1
      put := by
        rintro w _ s ⟨rfl, hw⟩ -
        exact ⟨rfl, hw⟩
      placed := fun _ _ _ never => never }
  follows := .refl env
  loads name :=
    { ok := by
        rintro w _ ⟨rfl, hw⟩ t w' loaded
        exact ⟨w', loaded, rfl, (henv.loadTemplate name w t w' hw loaded).1⟩
      error := by
        rintro w _ ⟨rfl, hw⟩ f w' failed
        exact ⟨w', failed, rfl, loadTemplate_failed hw failed⟩ }
  cached := by
    rintro w _ ⟨rfl, -⟩ unit t found
    exact found

end Harmless
end Environment

/-! ## Prints -/

variable {scope : Scope} {args : List Value} {named : List (String × Value)} {s s' : Store}
  {v : Option Value}

theorem Callable.make_ok {callee : String} {parameters : List Arguments.Parameter}
    {run : Scope → Given → Act Value}
    (h : make callee parameters run scope args named s = .ok v s') :
    ∃ given a, run scope given s = .ok a s' ∧ v = some a := by
  unfold make at h
  cases hbind : Arguments.bind callee parameters args named with
  | error f =>
    rw [hbind] at h
    cases h
  | ok given =>
    rw [hbind] at h
    obtain ⟨a, s₁, hrun, hv⟩ := Step.bind_ok.1 h
    obtain ⟨rfl, rfl⟩ := Step.pure_ok.1 hv
    exact ⟨given, a, hrun, rfl⟩

theorem Language.escape_clean (h : Language.escape scope args named s = .ok v s') :
    ∃ t, v = some (.text t) ∧ Clean t := by
  obtain ⟨given, a, hrun, rfl⟩ := Callable.make_ok h
  obtain ⟨shown, s₂, -, hrun⟩ := Step.bind_ok.1 hrun
  split at hrun
  · obtain ⟨rfl, -⟩ := Step.pure_ok.1 hrun
    exact ⟨_, rfl, clean_markup shown⟩
  · split at hrun
    · obtain ⟨rfl, -⟩ := Step.pure_ok.1 hrun
      exact ⟨_, rfl, clean_address shown⟩
    · cases hrun

theorem Attr.print_clean (s : Store) {c : Attr} (hc : ∀ t, c = .text t → Clean t) :
    Clean (s.view c.toValue).print := by
  have shown : (s.view c.toValue).print = (c.toValue.view (fun _ => .null) (fun _ => .null)
      fun _ => .null).print := by
    cases c <;> rfl
  rw [shown]
  cases c with
  | null | foreign => exact clean_empty
  | bool b => cases b <;> exact (by decide)
  | int i => exact clean_int i
  | float f => exact clean_shownFloat f
  | text t => exact hc t rfl

/-! ## Programs -/

/-- Whatever a block shows is clean or escaped. -/
def Block.Guarded : Block → Prop
  | .code owner body => owner.Guarded ∧ body.Guarded
  | .foreign _ => True

/-- Whatever blocks in force show is clean or escaped. -/
def Blocks.Guarded (blocks : Blocks) : Prop := ∀ b ∈ blocks, b.2.Guarded

theorem Template.Guarded.ownBlocks {t : Template} (h : t.Guarded) : t.ownBlocks.Guarded := by
  intro b hb
  obtain ⟨own, hown, rfl⟩ := mem_map.1 hb
  exact ⟨h, h.blocks own hown⟩

theorem Blocks.Guarded.atop {above below : Blocks} (ha : above.Guarded) (hb : below.Guarded) :
    (above.atop below).Guarded :=
  forall_mem_append.2 ⟨ha, hb⟩

theorem Blocks.guarded_nil : Blocks.Guarded [] := forall_mem_nil _

theorem Blocks.Guarded.lookup {blocks : Blocks} (h : blocks.Guarded) {name : String} {b : Block}
    (found : blocks.lookup name = some b) : b.Guarded :=
  h (name, b) (mem_of_lookup found)

def Template.GuardedIfAny (t : Option Template) : Prop := ∀ p, t = some p → p.Guarded

/-- Whatever is called shows clean texts, if it is guarded. -/
structure Calls.Clean (I : World → Prop) (calls : Calls) : Prop where
  keeps : calls.Alike (Kept I) (fun _ => False) calls
  display : ∀ t context blocks, t.Guarded → blocks.Guarded →
    Yields I Stencil.Clean (calls.display t context blocks)
  displayBlock : ∀ t name context blocks useBlocks, t.Guarded → blocks.Guarded →
    Yields I Stencil.Clean (calls.displayBlock t name context blocks useBlocks)
  displayParentBlock : ∀ t name context blocks, t.Guarded → blocks.Guarded →
    Yields I Stencil.Clean (calls.displayParentBlock t name context blocks)
  displayParent : ∀ t context blocks, t.Guarded → blocks.Guarded →
    Yields I Stencil.Clean (calls.displayParent t context blocks)

/-! ### Templates that are found -/

theorem loading_guarded {env : Environment} (henv : env.Harmless) (name : String)
    {meet : Fault → Eval (Option Template)}
    (hmeet : ∀ fault, Yields env.HarmlessWorld Template.GuardedIfAny (meet fault)) :
    Yields env.HarmlessWorld Template.GuardedIfAny
      (tryCatch (return some (← Eval.ofTask (env.loadTemplate name))) meet) := by
  refine Yields.tryCatch ?loaded ?failed hmeet
  case loaded =>
    intro w t w' hw ok
    obtain ⟨u, w₁, loaded, made⟩ := Step.bind_ok.1 ok
    obtain ⟨rfl, rfl⟩ := Step.pure_ok.1 made
    obtain ⟨hw', harmless⟩ := henv.loadTemplate name w u w₁ hw (Eval.ofTask_ok.1 loaded)
    refine ⟨hw', fun p hp => ?_⟩
    cases hp
    exact harmless.guarded
  case failed =>
    intro w fault w' hw failed
    rcases Step.bind_error.1 failed with failed | ⟨_, _, _, made⟩
    · obtain ⟨f, failed, -⟩ := Eval.ofTask_error.1 failed
      exact Environment.Harmless.loadTemplate_failed hw failed
    · cases made

theorem templateOf_guarded {env : Environment} (unit : String) :
    Yields env.HarmlessWorld Template.Guarded (Eval.templateOf unit) := by
  intro w t w' hw ok
  obtain ⟨v, _, got, ok⟩ := Step.bind_ok.1 ok
  obtain ⟨rfl, rfl⟩ := Step.get_ok.1 got
  cases found : w.cache.lookup unit with
  | none =>
    rw [found] at ok
    cases ok
  | some u =>
    rw [found] at ok
    obtain ⟨rfl, rfl⟩ := Step.pure_ok.1 ok
    exact ⟨hw, (hw unit u found).guarded⟩

/-! ### Statements -/

namespace Frame

variable {calls : Calls} {frame : Frame} (henv : frame.env.Harmless)
  (hcalls : calls.Clean frame.env.HarmlessWorld) (ht : frame.template.Guarded)
  (hblocks : frame.blocks.Guarded)

theorem yields_located {α : Type} {I : World → Prop} {Q : α → Prop} {x : Eval α} (mark : Int)
    (hx : Yields I Q x) : Yields I Q (frame.located mark x) :=
  fun w a w' hw ok => hx w a w' hw (located_ok.1 ok)

include henv

theorem yields_act {α : Type} (x : Act α) :
    Yields frame.env.HarmlessWorld (fun _ => True) (Eval.ofAct x) :=
  .of_sim (henv.parallel.act x)

theorem printed_clean {v : Value} (hv : ∀ s : Store, Clean (s.view v).print) :
    Yields frame.env.HarmlessWorld Clean (printed v) := by
  intro w out w' hw shown
  obtain ⟨hw', -⟩ := yields_act henv _ w out w' hw shown
  obtain ⟨s, printed, -⟩ := Eval.ofAct_ok.1 shown
  rw [Act.print_eq] at printed
  split at printed
  · cases printed
  · cases printed
    exact ⟨hw', hv _⟩

theorem invoke_escape_clean (sort name : String) (args : List Value)
    (named : List (String × Value)) (line : Int) :
    Yields frame.env.HarmlessWorld (fun v => ∀ s : Store, Clean (s.view v).print)
      (frame.invoke (some Language.escape) sort name args named line) := by
  intro w v w' hw called
  have escaped := Step.ok_of_tryCatch_ok (fun _ => fails_raiseFrom frame line _ _) called
  obtain ⟨given, w₁, acted, made⟩ := Step.bind_ok.1 escaped
  obtain ⟨rfl, rfl⟩ := Step.pure_ok.1 made
  obtain ⟨hw', -⟩ := yields_act henv _ w given w₁ hw acted
  obtain ⟨s, acted, -⟩ := Eval.ofAct_ok.1 acted
  obtain ⟨text, rfl, clean⟩ := Language.escape_clean acted
  refine ⟨hw', fun s => ?_⟩
  change Clean (s.view (.text text)).print
  rw [Store.view_text]
  exact clean

include hcalls

theorem yields_value (e : Expr) :
    Yields frame.env.HarmlessWorld (fun _ => True) (value calls frame e) :=
  .of_sim (value_sim frame henv.parallel
    (hcalls.keeps.match frame frame.env frame.root).toMatchBlocks e)

include ht hblocks

theorem value_clean {e : Expr} (he : e.Guarded) :
    Yields frame.env.HarmlessWorld (fun v => ∀ s : Store, Clean (s.view v).print)
      (value calls frame e) := by
  have text : ∀ {out : String}, Clean out → ∀ s : Store, Clean (s.view (.text out)).print := by
    intro out hout s
    rw [Store.view_text]
    exact hout
  cases e with
  | constant c =>
    rw [value]
    exact .pure fun s => Attr.print_clean s he
  | filter name operand args names vs line =>
    rw [value, henv.escape name he]
    have matched := (hcalls.keeps.match frame frame.env frame.root).toMatchBlocks
    have positional := values_sim frame henv.parallel matched args
    have named := namedValues_sim frame henv.parallel matched names
      vs
    exact (yields_value henv hcalls operand).bind fun _ _ => (Yields.of_sim positional).bind
      fun _ _ => (Yields.of_sim named).bind fun _ _ => invoke_escape_clean henv _ _ _ _ _
  | parentBlock name =>
    rw [value]
    exact (hcalls.displayParentBlock _ name _ _ ht hblocks).bind fun out hout => .pure (text hout)
  | blockCall e =>
    rw [value]
    refine (yields_value henv hcalls e).bind fun v _ => (yields_act henv _).bind fun name _ => ?_
    exact (hcalls.displayBlock _ name _ _ true ht hblocks).bind fun out hout => .pure (text hout)
  | _ => exact he.elim

omit henv hcalls ht hblocks in
mutual

theorem resolve_guarded (henv : frame.env.Harmless) (ignoreMissing : Bool) (line : Int) (d : Datum) :
    Yields frame.env.HarmlessWorld Template.GuardedIfAny
      (frame.resolve ignoreMissing line d) := by
  have byName : ∀ name, Yields frame.env.HarmlessWorld Template.GuardedIfAny
      (tryCatch (return some (← Eval.ofTask (frame.env.loadTemplate name))) fun fault =>
        if ignoreMissing && fault.failure.saysMissing then return none
        else frame.raiseFrom line (.notLoaded name) fault.failure) := by
    refine fun name => loading_guarded henv name fun fault => ?_
    split
    · exact .pure nofun
    · exact .of_fails (fails_raiseFrom frame line _ _)
  cases d with
  | template name unit =>
    rw [resolve]
    refine (templateOf_guarded unit).bind fun t ht => .pure fun p hp => ?_
    cases hp
    exact ht
  | list items | tuple items =>
    rw [resolve]
    exact resolveFirst_guarded henv ignoreMissing line [] items
  | _ =>
    rw [resolve.eq_def]
    exact byName _

theorem resolveFirst_guarded (henv : frame.env.Harmless) (ignoreMissing : Bool) (line : Int)
    (tried : List String) (ds : List Datum) :
    Yields frame.env.HarmlessWorld Template.GuardedIfAny
      (frame.resolveFirst ignoreMissing line tried ds) := by
  cases ds with
  | nil =>
    rw [resolveFirst]
    split
    · exact .pure nofun
    · exact .of_fails (fails_raise frame line _ _)
  | cons d ds =>
    rw [resolveFirst]
    refine (resolve_guarded henv true line d).bind fun t ht => ?_
    cases t with
    | some t => exact .pure ht
    | none => exact resolveFirst_guarded henv ignoreMissing line _ ds

end

omit hcalls ht hblocks in
theorem resolveValue_guarded (v : Value) (ignoreMissing : Bool) (line : Int) :
    Yields frame.env.HarmlessWorld Template.GuardedIfAny
      (frame.resolveValue v ignoreMissing line) := by
  intro w t w' hw ok
  obtain ⟨_, _, got, ok⟩ := Step.bind_ok.1 ok
  obtain ⟨rfl, rfl⟩ := Step.get_ok.1 got
  exact resolve_guarded henv ignoreMissing line _ w t w' hw ok

omit ht hblocks in
theorem inclusion_clean (name bindings : Value) (only ignoreMissing : Bool) (line : Int) :
    Yields frame.env.HarmlessWorld Clean
      (frame.inclusion calls name bindings only ignoreMissing line) := by
  refine Yields.bind (Q := fun _ => True) ?given fun extra _ =>
    Yields.bind (Q := fun _ => True) ?inherited fun base _ =>
      (resolveValue_guarded henv name ignoreMissing line).bind fun t ht => ?shown
  case given =>
    unfold given
    split
    · exact .pure trivial
    · exact yields_act henv _
    · exact .of_fails (fails_raise frame line _ _)
  case inherited =>
    unfold inherited
    split
    · exact .pure trivial
    · exact yields_act henv _
  case shown =>
    cases t with
    | none => exact .pure clean_empty
    | some t =>
      refine (yields_act henv _).bind fun v _ => ?_
      split
      · exact hcalls.display _ _ _ (ht t rfl) Blocks.guarded_nil
      · exact .pure clean_empty

omit hcalls ht hblocks in
theorem rounds_clean (key val : String) {body : Eval String}
    (hbody : Yields frame.env.HarmlessWorld Clean body) (pairs : List Value) :
    Yields frame.env.HarmlessWorld Clean (frame.rounds key val body pairs) := by
  induction pairs with
  | nil => exact .pure clean_empty
  | cons pair rest ih =>
    exact (yields_act henv _).bind fun _ _ => (yields_act henv _).bind fun _ _ =>
      hbody.bind fun _ hshown => ih.bind fun _ hrest => .pure (clean_append.2 ⟨hshown, hrest⟩)

omit hcalls ht hblocks in
theorem looping_clean (key val : String) {body : Eval String}
    (hbody : Yields frame.env.HarmlessWorld Clean body) :
    Yields frame.env.HarmlessWorld Clean (frame.looping key val body) := by
  refine (yields_act henv _).bind fun seq _ => Yields.bind (Q := fun _ => True) ?_ fun w _ =>
    (yields_act henv _).bind fun _ _ => (rounds_clean henv key val hbody _).bind fun _ hshown =>
      (yields_act henv _).bind fun _ _ => .pure hshown
  intro w v w' hw got
  obtain ⟨rfl, rfl⟩ := Step.get_ok.1 got
  exact ⟨hw, trivial⟩

/-- **Guarded statements show clean texts.** -/
theorem run_clean {code : Stmt} (hcode : code.Guarded) :
    Yields frame.env.HarmlessWorld Clean (run calls frame code) := by
  induction code with
  | skip => exact .pure clean_empty
  | seq first second first_ih second_ih =>
    exact (first_ih hcode.1).bind fun _ hfirst => (second_ih hcode.2).bind fun _ hsecond =>
      .pure (clean_append.2 ⟨hfirst, hsecond⟩)
  | text data => exact .pure hcode
  | print e mark =>
    exact yields_located mark ((value_clean henv hcalls ht hblocks hcode).bind fun _ hv =>
      printed_clean henv hv)
  | block name mark =>
    exact yields_located mark (hcalls.displayBlock _ name _ _ true ht hblocks)
  | assign name e mark =>
    exact yields_located mark ((yields_value henv hcalls e).bind fun _ _ =>
      (yields_act henv _).bind fun _ _ => .pure clean_empty)
  -- what is captured is stored and not shown, so that it need not be clean
  | capture name body mark _ =>
    exact yields_located mark ((Yields.of_sim (run_sim frame henv.parallel
      (hcalls.keeps.match frame frame.env frame.root) body)).bind fun _ _ =>
      (yields_act henv _).bind fun _ _ => .pure clean_empty)
  | inclusion template bindings only ignoreMissing line mark =>
    have matched := (hcalls.keeps.match frame frame.env frame.root).toMatchBlocks
    have extra := sim_of_rel ((henv.parallel.serves frame.root frame.root).valueIfAny rfl
      matched.related bindings) fun _ _ h => h.eq
    exact yields_located mark ((yields_value henv hcalls template).bind fun _ _ =>
      (Yields.of_sim extra).bind fun _ _ => inclusion_clean henv hcalls _ _ only ignoreMissing line)
  | branch condition yes no mark yes_ih no_ih =>
    have test := (yields_value henv hcalls condition).bind fun v _ =>
      Yields.of_sim (truth_sim _ henv.parallel v)
    refine (yields_located mark test).bind fun b _ => ?_
    cases b with
    | true => exact yes_ih hcode.1
    | false => exact no_ih hcode.2
  | loop key val sequence flags body otherwise mark elseMark endMark body_ih otherwise_ih =>
    have entered := (yields_act henv (Loop.save frame.context)).bind fun _ _ =>
      (yields_value henv hcalls sequence).bind fun v _ =>
        yields_act henv (Loop.enter frame.context flags v)
    refine (yields_located mark entered).bind fun _ _ =>
      (yields_located mark (looping_clean henv key val (body_ih hcode.1))).bind fun _ hshown =>
      (yields_located elseMark (Yields.of_sim (hadNone_sim frame henv.parallel flags))).bind
        fun none _ => Yields.bind (Q := Clean) ?_ fun _ hinstead =>
          (yields_located endMark (yields_act henv _)).bind fun _ _ =>
            .pure (clean_append.2 ⟨hshown, hinstead⟩)
    cases none with
    | true => exact otherwise_ih hcode.2
    | false => exact .pure clean_empty
  | round flags mark =>
    exact yields_located mark ((yields_act henv _).bind fun _ _ => .pure clean_empty)

end Frame

/-! ## Templates -/

namespace Render

variable {env : Environment} {root : String} {calls : Calls} (henv : env.Harmless)
  (hcalls : calls.Clean env.HarmlessWorld) {t : Template}

include henv hcalls

theorem parentOf_guarded (t : Template) (context : Nat) :
    Yields env.HarmlessWorld Template.GuardedIfAny (parentOf env root calls t context) := by
  let frame := env.frame root t context []
  unfold parentOf
  cases t.parent with
  | none => exact .pure nofun
  | some e =>
    have value : Yields env.HarmlessWorld (fun _ => True) (frame.value calls e) :=
      @Frame.yields_value calls frame henv hcalls e
    refine (Frame.yields_located t.parentMark value).bind fun v _ => ?_
    split
    · exact .pure nofun
    · refine Yields.bind (templateOf_guarded _) fun p hp => .pure fun q hq => ?_
      cases hq
      exact hp
    · exact loading_guarded henv _ fun fault => .of_fails (Frame.fails_raise _ 0 _ _)
    · exact .of_fails (Frame.fails_raise _ 0 _ _)

variable {blocks : Blocks}

theorem runBlock_clean (context : Nat) (hblocks : blocks.Guarded) {b : Block} (hb : b.Guarded) :
    Yields env.HarmlessWorld Clean (runBlock env root calls context blocks b) := by
  cases b with
  | code owner body =>
    refine (Yields.of_sim (copyOf_sim henv.parallel context)).bind fun copy _ => ?_
    let frame := env.frame root owner copy blocks
    have shown : Yields env.HarmlessWorld Clean (frame.run calls body) :=
      @Frame.run_clean calls frame henv hcalls hb.1 hblocks body hb.2
    exact shown
  | foreign type => exact .of_fails (Eval.fails_fail _)

theorem display_clean (ht : t.Guarded) (context : Nat) (hblocks : blocks.Guarded) :
    Yields env.HarmlessWorld Clean (display env root calls t context blocks) := by
  have atop := hblocks.atop ht.ownBlocks
  let frame := env.frame root t context (blocks.atop t.ownBlocks)
  have body : Yields env.HarmlessWorld Clean (frame.run calls t.body) :=
    @Frame.run_clean calls frame henv hcalls ht atop t.body ht.body
  refine body.bind fun _ hshown => ?_
  split
  · exact .pure hshown
  · exact Frame.yields_located _ (hcalls.displayParent _ _ _ ht atop)

theorem displayBlock_clean (ht : t.Guarded) (name : String) (context : Nat)
    (hblocks : blocks.Guarded) (useBlocks : Bool) :
    Yields env.HarmlessWorld Clean
      (displayBlock env root calls t name context blocks useBlocks) := by
  unfold displayBlock
  dsimp only
  split
  · next b found =>
    refine runBlock_clean henv hcalls context hblocks ?_
    rcases Option.or_eq_some_iff.1 found with inForce | ⟨-, own⟩
    · split at inForce
      · exact hblocks.lookup inForce
      · cases inForce
    · exact ht.ownBlocks.lookup own
  · refine (parentOf_guarded henv hcalls t context).bind fun parent hparent => ?_
    cases parent with
    | some parent =>
      exact hcalls.displayBlock _ _ _ _ _ (hparent parent rfl) (hblocks.atop ht.ownBlocks)
    | none =>
      dsimp only
      split
      · exact .of_fails (Frame.fails_raise _ 0 _ _)
      · exact .of_fails (Frame.fails_raise _ 0 _ _)

theorem displayParentBlock_clean (t : Template) (name : String) (context : Nat)
    (hblocks : blocks.Guarded) :
    Yields env.HarmlessWorld Clean (displayParentBlock env root calls t name context blocks) := by
  refine (parentOf_guarded henv hcalls t context).bind fun parent hparent => ?_
  cases parent with
  | some parent => exact hcalls.displayBlock _ _ _ _ _ (hparent parent rfl) hblocks
  | none => exact .of_fails (Frame.fails_raise _ 0 _ _)

theorem displayParent_clean (ht : t.Guarded) (context : Nat) (hblocks : blocks.Guarded) :
    Yields env.HarmlessWorld Clean (displayParent env root calls t context blocks) := by
  refine (parentOf_guarded henv hcalls t context).bind fun parent hparent => ?_
  cases parent with
  | some parent =>
    exact hcalls.display _ _ _ (hparent parent rfl) (hblocks.atop ht.ownBlocks)
  | none => exact .of_fails (Frame.fails_raise _ 0 _ _)

omit hcalls in
/-- **Guarded templates show clean texts**, however deep they call each other. -/
theorem callsAt_clean (root : String) (depth : Nat) :
    (callsAt env root depth).Clean env.HarmlessWorld := by
  have keeps := fun d => callsAt_alike henv.parallel root root (Nat.le_refl d)
  induction depth with
  | zero =>
    exact
      { keeps := keeps 0
        display := fun _ _ _ _ _ => .of_fails (Eval.fails_fail _)
        displayBlock := fun _ _ _ _ _ _ _ => .of_fails (Eval.fails_fail _)
        displayParentBlock := fun _ _ _ _ _ _ => .of_fails (Eval.fails_fail _)
        displayParent := fun _ _ _ _ _ => .of_fails (Eval.fails_fail _) }
  | succ depth ih =>
    exact
      { keeps := keeps (depth + 1)
        display := fun _ context _ ht hblocks => display_clean henv ih ht context hblocks
        displayBlock := fun _ name context _ use ht hblocks =>
          displayBlock_clean henv ih ht name context hblocks use
        displayParentBlock := fun t name context _ _ hblocks =>
          displayParentBlock_clean henv ih t name context hblocks
        displayParent := fun _ context _ ht hblocks =>
          displayParent_clean henv ih ht context hblocks }

end Render

namespace Environment

variable {env : Environment}

theorem renderTemplate_clean (henv : env.Harmless) {t : Template} (ht : t.Guarded)
    (bindings : List (String × Plain)) :
    Yields env.HarmlessWorld Clean (env.renderTemplate t bindings) := by
  refine Yields.bind (Q := fun _ => True) ?context fun v _ => ?shown
  case context =>
    intro w v w' hw ok
    obtain ⟨s, -, rfl⟩ := Task.ofAct_ok.1 ok
    exact ⟨hw, trivial⟩
  case shown =>
    split
    · intro w out w' hw ok
      exact (Render.callsAt_clean henv t.unit Render.depth).display t _ [] ht Blocks.guarded_nil w out
        w' hw (Task.finish_ok.1 ok)
    · exact .pure clean_empty

variable {options : Options} {extensions : List Extension} {source : String → Except Failure String}
  {host : Host}

theorem harmless_of_make (made : make options extensions source host = .ok env)
    (on : options.autoescape ≠ "")
    (sources : ∀ name text, source name = .ok text → env.HarmlessSource text name) :
    env.Harmless := by
  unfold make at made
  split at made
  · cases made
  · dsimp only at made
    split at made
    · cases made
    · cases made
      refine ⟨on, sources, fun name hname => Registry.filter_of_core ?_ extensions⟩
      rcases hname with rfl | rfl
      · simp [Language.filters]
      · simp [Language.filters]

/-- **Escaping keeps markup out.**  In an environment that escapes for documents or for addresses,
let all templates be free of markup as far as they can tell by themselves: the texts and printed
constants in them are clean, and no print ends in the filter `raw`. Then a rendering that succeeds
shows a clean text, whatever the variables are, and the templates it leaves behind are as harmless as
those before. The same goes for templates made from a source alone. -/
theorem render_clean {options : Options} {extensions : List Extension}
    {source : String → Except Failure String} {host : Host}
    (made : make options extensions source host = .ok env)
    (on : options.autoescape = "html" ∨ options.autoescape = "url")
    (sources : ∀ name text, source name = .ok text → env.HarmlessSource text name)
    {w : World} (hw : env.HarmlessWorld w) :
    (∀ name bindings out w', env.render name bindings w = .ok out w' →
      Clean out ∧ env.HarmlessWorld w') ∧
    (∀ text bindings out w', env.HarmlessSource text (stringTemplateName text) →
      (env.createTemplate text >>= fun t => env.renderTemplate t bindings) w = .ok out w' →
      Clean out ∧ env.HarmlessWorld w') := by
  have escaping : options.autoescape ≠ "" := by
    rcases on with on | on <;> rw [on] <;> decide
  have henv := harmless_of_make made escaping sources
  constructor
  · intro name bindings out w' ok
    have rendered := (henv.loadTemplate name).bind fun t ht =>
      renderTemplate_clean henv ht.guarded bindings
    exact (rendered w out w' hw ok).symm
  · intro text bindings out w' harmless ok
    have rendered : Yields env.HarmlessWorld Clean _ :=
      Yields.bind (fun _ _ _ hw loaded => load_harmless henv.on harmless hw loaded) fun t ht =>
        renderTemplate_clean henv ht.guarded bindings
    exact (rendered w out w' hw ok).symm

def letterSource : String := "Dear \x7b\x7b name \x7d\x7d"

def letterTokens : Array Token :=
  #[⟨.text, "Dear ", 1⟩, ⟨.printStart, "", 1⟩, ⟨.name, "name", 1⟩, ⟨.printEnd, "", 1⟩,
    ⟨.endOfTemplate, "", 1⟩]

def letterTree : Node :=
  .ofModule (.ofBody [.ofText "Dear " 1, .ofPrint (.ofName "name" 1) 1] 1) .absent [] "letter"

def escapedName : Node :=
  .ofCall .filter "escape" 1 [.ofName "name" 1, .plain .arguments 1 [.ofString "html" 1]]

/-- The body of the letter when what it prints is escaped. -/
def letterBody : Node := .ofBody [.ofText "Dear " 1, .ofPrint escapedName 1] 1

def letterTemplate : Template where
  name := "letter"
  unit := unitName "letter" letterSource
  body := .seq (.text "Dear ") (.seq (.print (.filter "escape" (.reading "name" false 1)
    [.constant (.text "html")] [] [] 1) 1) .skip)
  parent := none
  endMark := 1
  parentMark := 1
  blocks := []

def letterLoader (name : String) : Except Failure String :=
  if name = "letter" then .ok letterSource else .error (.plain name)

def letterEnvironment : Environment := ofCore { autoescape := "html" } letterLoader ⟨#[]⟩

theorem tokenize_letter : letterEnvironment.tokenize letterSource "letter" = .ok letterTokens :=
  tokenize_core _ _ _ (by decide +kernel) "letter"

theorem tree_letter : Parse.tree letterEnvironment.registry.grammar
    (TokenStream.ofTokens letterTokens "letter") = .ok letterTree := by
  with_unfolding_all rfl

theorem build_letter : letterEnvironment.build letterSource "letter" = .ok letterTemplate := by
  have read : letterEnvironment.tree letterSource "letter" =
      .ok (.ofModule letterBody .absent [] "letter") := by
    rw [tree, tokenize_letter]
    show letterEnvironment.parse _ = _
    rw [parse, tree_letter]
    rfl
  have printed : escapedName.IsExpression := Node.isExpression_double rfl
    (Node.isExpression_leaf rfl ..) (Node.isExpression_single rfl (Node.isExpression_leaf rfl ..))
  have shows : Listing.Showing letterBody :=
    .body (forall_mem_cons.2 ⟨.text _ _, forall_mem_singleton.2 (.print printed _)⟩) _
  exact build_showing read shows (by decide +kernel) rfl

def letterStore : Store := ⟨#[], #[.ready [(.text "name", .text "<b>")]], #[], 0, 0⟩

def letterDesk : World := ⟨letterStore, [(unitName "letter" letterSource, letterTemplate)], 0, 1⟩

theorem run_letter (calls : Calls) (root : String) :
    (letterEnvironment.frame root letterTemplate 0 []).run calls letterTemplate.body letterDesk =
      .ok "Dear &lt;b&gt;" letterDesk := by
  have escape : letterEnvironment.registry.filters.get? "escape" = some Language.escape :=
    Registry.filter_of_core (by simp [Language.filters]) []
  refine Step.bind_ok.2 ⟨"Dear ", letterDesk, rfl, Step.bind_ok.2 ⟨"&lt;b&gt;", letterDesk,
    Step.bind_ok.2 ⟨"&lt;b&gt;", letterDesk, Frame.located_ok.2 (Step.bind_ok.2
      ⟨.text "&lt;b&gt;", letterDesk, ?value, rfl⟩), Step.bind_ok.2 ⟨"", letterDesk, rfl, rfl⟩⟩, rfl⟩⟩
  rw [Frame.value]
  refine Step.bind_ok.2 ⟨.text "<b>", letterDesk, rfl, Step.bind_ok.2 ⟨[.text "html"], letterDesk,
    rfl, Step.bind_ok.2 ⟨[], letterDesk, rfl, ?_⟩⟩⟩
  change Frame.invoke _ (letterEnvironment.registry.filters.get? "escape") _ _ _ _ _ _ = _
  rw [escape]
  rfl

theorem render_clean_letter : ∃ env w',
    make { autoescape := "html" } [] letterLoader ⟨#[]⟩ = .ok env ∧
    env.HarmlessWorld World.start ∧
    env.render "letter" [("name", .text "<b>")] World.start = .ok "Dear &lt;b&gt;" w' ∧
    Clean "Dear &lt;b&gt;" := by
  have made : make _ [] _ _ = .ok letterEnvironment :=
    make_core { autoescape := "html" } (by decide) letterLoader ⟨#[]⟩
  have sources : ∀ name text, letterLoader name = .ok text →
      letterEnvironment.HarmlessSource text name := by
    intro name text found tokens module scanned read
    unfold letterLoader at found
    split at found
    · next is =>
      cases found
      subst is
      obtain rfl := Except.ok.inj (tokenize_letter.symm.trans scanned)
      obtain rfl := Except.ok.inj (tree_letter.symm.trans read)
      rfl
    · cases found
  have hw : letterEnvironment.HarmlessWorld World.start := fun _ _ found => by cases found
  have context : Plain.context [("name", .text "<b>")] .empty = .ok (.dict 0) letterStore := by cbv
  have rendered : letterEnvironment.render "letter" [("name", .text "<b>")] World.start =
      .ok "Dear &lt;b&gt;" letterDesk := by
    refine Step.bind_ok.2 ⟨letterTemplate, _,
      loadTemplate_ok.2 ⟨letterSource, rfl, load_ok.2 (Or.inr ⟨rfl, build_letter, rfl⟩)⟩,
      Step.bind_ok.2 ⟨_, _, Task.ofAct_ok.2 ⟨_, context, rfl⟩, Task.finish_ok.2 ?_⟩⟩
    exact Step.bind_ok.2 ⟨_, _, run_letter _ _, rfl⟩
  exact ⟨_, _, made, hw, rendered,
    ((render_clean made (Or.inl rfl) sources hw).1 _ _ _ _ rendered).1⟩

end Environment
end Stencil
