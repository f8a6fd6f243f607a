import Stencil.Proofs.MirrorRender
import Stencil.Proofs.Scoping

/-!
# Other templates and blocks leave the variables alone

A template that is included, and a block wherever it is shown from, works on variables of its own.
Whatever it does with them, the variables of the code that called it are as they were. The one thing
that reaches further is the account of a loop, which is kept in whatever dict has the name `loop`; so
the variables must not look like one.

In the other direction, a template that is included with variables of its own alone sees nothing of
the variables where it is included.
-/

namespace Stencil

open Step (Gives Outcome Follows Respects bind_ok bind_of_ok tryCatch_congr)

/-- A statement that does nothing but show other code: a block, or a template. -/
def Stmt.showsOther : Stmt → Bool
  | .block .. => true
  | .inclusion .. => true
  | _ => false

/-- An environment that cannot tell where a container stands. -/
structure Environment.Impartial (env : Environment) : Prop where
  methods : ∀ p, env.methods.Mirror p
  callables : ∀ p c, env.registry.Offers c → c.Mirror p

theorem Environment.impartial_ofCore (options : Options) (source : String → Except Failure String)
    (host : Host) : (ofCore options source host).Impartial where
  methods _ := Container.method?_mirror
  callables p := Registry.forall_offers fun e he => by
    rw [List.mem_singleton.1 he]
    exact Language.core_mirror

/-- A dict has the entries it had, and so have all containers that do not look like the account of a
loop. -/
def Store.KeepsDict (context : Nat) (s s' : Store) : Prop :=
  s'.dict context = s.dict context ∧ s.SparesAll s'

theorem Store.Spares.keepsDict {s s' : Store} {context : Nat} (h : s.SparesAll s')
    (there : context < s.dicts.size) (uncounted : (s.dict context).isAccount = false) :
    s.KeepsDict context s' :=
  ⟨h.dict there id (by rw [uncounted]; decide), h⟩

namespace Frame

variable {frame : Frame} {depth : Nat}

/-! ## What other code changes -/

section Kept

variable {calls : Calls} (henv : frame.env.Steady) (hcalls : calls.Sparing)

include henv hcalls

/-- A statement that shows other code changes no container but accounts of loops. -/
theorem showsOther_spares {code : Stmt} (other : code.showsOther = true) :
    Respects (World.On Store.SparesAll) (frame.run calls code) := by
  cases code with
  | block name mark => exact follows_located frame mark (hcalls.displayBlock _ _ _ _ _)
  | inclusion template bindings only ignoreMissing line mark =>
    have all : frame.Bounded calls Store.SparesAll := bounded_spares henv hcalls
    refine follows_located frame mark ((all.value template).bind fun name => ?_)
    refine Follows.bind ?_ fun extra => all.inclusion name extra only ignoreMissing line
    cases bindings with
    | none => exact .pure _
    | some e => exact all.value e
  | _ => cases other

end Kept

section Insulated

/-- What an inclusion evaluates before anything is included: the name and the variables. -/
def included (calls : Calls) (frame : Frame) (template : Expr) (bindings : Option Expr) :
    Eval (Value × Value) := do
  let name ← value calls frame template
  let extra ← valueIfAny calls frame bindings
  return (name, extra)

variable {calls : Calls} {template : Expr} {bindings : Option Expr} {name extra : Value}
  {w w' : World}

theorem included_ok : frame.included calls template bindings w = .ok (name, extra) w' ↔
    ∃ w₁, frame.value calls template w = .ok name w₁ ∧
      frame.valueIfAny calls bindings w₁ = .ok extra w' := by
  constructor
  · intro ok
    obtain ⟨_, w₁, named, rest⟩ := bind_ok.1 ok
    obtain ⟨_, w₂, given, done⟩ := bind_ok.1 rest
    cases done
    exact ⟨w₁, named, given⟩
  · rintro ⟨w₁, named, given⟩
    exact bind_ok.2 ⟨name, w₁, named, bind_ok.2 ⟨extra, w', given, rfl⟩⟩

theorem run_inclusion_eq {only ignoreMissing : Bool} {line mark : Int}
    (known : frame.included calls template bindings w = .ok (name, extra) w') :
    frame.run calls (.inclusion template bindings only ignoreMissing line mark) w =
      frame.located mark (frame.inclusion calls name extra only ignoreMissing line) w' := by
  obtain ⟨w₁, named, given⟩ := included_ok.1 known
  exact tryCatch_congr ((bind_of_ok named).trans (bind_of_ok given))

/-- Including a template with variables of its own alone gives the same wherever it is done. -/
theorem shut_off {p : Pairing} {B : World → World → Prop} (henv : frame.env.Mirror p B)
    (hcalls : (mirroring p B).Called p calls calls) {d : Nat} {name' extra' : Value} {v v' : World}
    (hname : Value.Alike p name name') (hextra : Value.Alike p extra extra')
    (worlds : World.Alike p B w' v')
    (known : frame.included calls template bindings w = .ok (name, extra) w')
    (known' : (frame.withContext d).included calls template bindings v = .ok (name', extra') v')
    (ignoreMissing : Bool) (line mark : Int) :
    Outcome (World.Alike p B) Eq
      (frame.run calls (.inclusion template bindings true ignoreMissing line mark) w)
      ((frame.withContext d).run calls (.inclusion template bindings true ignoreMissing line mark)
        v) := by
  rw [run_inclusion_eq known, run_inclusion_eq known']
  have keeps := henv.keeps frame.root
  have shown := @Correspondence.Keeps.inclusion _ _ _ _ _ _ calls calls frame.template frame.context d
    frame.blocks frame.blocks keeps (fun t _ _ paired => hcalls.display t paired []) _ _ _ _ hname
    hextra true ignoreMissing line fun inherits => absurd inherits (by decide)
  exact keeps.located shown frame.template frame.context d frame.blocks frame.blocks mark w' v' worlds

end Insulated

/-- **Other templates and blocks leave the variables alone.**  Where no method of a container is
called, a tag that shows a block or another template leaves the variables of the code where it stands
as they are, and so does any expression, whatever blocks it shows. The variables must not look like
the account of a loop. And a template that is included with variables of its own alone shows the
same wherever that is done, if its name and its variables are the same there. -/
theorem calls_keep_scope (steady : ∀ c, frame.env.registry.Offers c → c.Steady)
    (impartial : frame.env.Impartial) :
    (∀ w : World, frame.context < w.store.dicts.size →
      (w.store.dict frame.context).isAccount = false →
      (∀ code out w', code.showsOther = true →
        frame.barred.run (Render.callsAt frame.env.barred frame.root depth) code w = .ok out w' →
        frame.run (Render.callsAt frame.env frame.root depth) code w = .ok out w' ∧
          w.store.KeepsDict frame.context w'.store) ∧
      ∀ e v w',
        frame.barred.value (Render.callsAt frame.env.barred frame.root depth) e w = .ok v w' →
        frame.value (Render.callsAt frame.env frame.root depth) e w = .ok v w' ∧
          w.store.KeepsDict frame.context w'.store) ∧
    ∀ (p : Pairing) d template bindings name extra name' extra' w w' v v',
      frame.env.host.Fits p →
      frame.included (Render.callsAt frame.env frame.root depth) template bindings w =
        .ok (name, extra) w' →
      (frame.withContext d).included (Render.callsAt frame.env frame.root depth) template bindings v =
        .ok (name', extra') v' →
      Value.Alike p name name' → Value.Alike p extra extra' →
      World.Alike p (frame.env.Agree p.templates) w' v' →
      ∀ ignoreMissing line mark,
        Outcome (World.Alike p (frame.env.Agree p.templates)) Eq
          (frame.run (Render.callsAt frame.env frame.root depth)
            (.inclusion template bindings true ignoreMissing line mark) w)
          ((frame.withContext d).run (Render.callsAt frame.env frame.root depth)
            (.inclusion template bindings true ignoreMissing line mark) v) := by
  have henv : frame.barred.env.Steady := frame.env.barred_steady steady
  have sparing := Render.callsAt_sparing henv frame.root depth
  refine ⟨fun w there uncounted => ⟨fun code out w' other ok => ?_, fun e v w' ok => ?_⟩, ?_⟩
  · exact ⟨(run_barred steady code).same ok,
      ((showsOther_spares henv sparing other).state ok).keepsDict there uncounted⟩
  · exact ⟨(value_barred steady e).same ok,
      ((value_spares henv sparing e).state ok).keepsDict there uncounted⟩
  · intro p d template bindings name extra name' extra' w w' v v' fits known known' hname hextra worlds
    have mirror := Environment.mirror_of_agree fits (impartial.methods p) (impartial.callables p)
    exact shut_off mirror ((mirror.keeps frame.root).callsAt depth) hname hextra worlds known known'

def echo : Template :=
  ⟨"echo", "echo",
    .seq (.assign "a" (.constant (.int 7)) 1) (.print (.reading "x" false 1) 1), none, 1, 1, []⟩

/-- A world in which `echo` has been made; the page has its variables after some other dicts. -/
def echoWorld (others : List Table) (es : Entries) : World :=
  { World.start with
    store := ⟨#[], (others ++ [Table.ready es]).toArray, #[], 0, 0⟩
    cache := [("echo", echo)] }

def echoVariables (others : Entries) : Entries :=
  others ++ [(.text "a", .int 5), (.text "echo", .template "echo" "echo")]

def echoBindings : Expr := .hash [.constant (.text "x"), .reading "a" false 1]

/-- A tag that includes `echo` with variables of its own alone. -/
def echoTag : Stmt := .inclusion (.reading "echo" false 1) (some echoBindings) true false 1 1

theorem calls_keep_scope_echo :
    let w := echoWorld [] (echoVariables [])
    let v := echoWorld [Table.ready []] (echoVariables [(.text "z", .int 9)])
    (∃ w', page.barred.run (Render.callsAt page.env.barred page.root 1) echoTag w = .ok "5" w' ∧
      w'.store.dict 0 = echoVariables []) ∧
    ∃ w' v', page.run (Render.callsAt page.env page.root 1) echoTag w = .ok "5" w' ∧
      (page.withContext 1).run (Render.callsAt page.env page.root 1) echoTag v = .ok "5" v' := by
  intro w v
  obtain ⟨keeps, same⟩ := @calls_keep_scope page 1 page_steady (Environment.impartial_ofCore _ _ _)
  obtain ⟨w', ok⟩ : Gives (page.barred.run (Render.callsAt page.env.barred page.root 1) echoTag) w
      "5" := by
    decide +kernel
  obtain ⟨ok', kept⟩ := (keeps w (by decide) (by decide)).1 echoTag "5" w' rfl ok
  let p := Pairing.ahead w.store v.store (· = "echo")
  have given : Table.Alike p (.filled [(.text "x", .int 5)]) (.filled [(.text "x", .int 5)]) :=
    Table.filled_alike (.cons ⟨.text "x", .int 5⟩ .nil)
  have alike : Store.Alike p w.store v.store := Store.alike_ahead _ _ _
  have shown := same p 1 (.reading "echo" false 1) (some echoBindings) _ _ _ _ w
    (echoWorld [.ready (echoVariables [])] [(.text "x", .int 5)]) v
    (echoWorld [.ready [], .ready (echoVariables [(.text "z", .int 9)])] [(.text "x", .int 5)])
    ⟨False.elim, False.elim⟩ rfl rfl (.template "echo" rfl) (.dict (alike.dicts.next 0))
    ⟨{ alike with dicts := alike.dicts.push p.dicts_unique given }, fun _ _ => rfl, fun _ _ _ => rfl⟩
    false 1 1
  rcases shown.cases with ⟨out, out', w₁, v₁, here, there, rfl, -⟩ | ⟨f, w₁, v₁, here, -, -⟩
  · cases here.symm.trans ok'
    exact ⟨⟨w', ok, kept.1⟩, w', v₁, ok', there⟩
  · cases here.symm.trans ok'

/-- A template whose body, and whose block `b`, is a loop that is counted in `me`. -/
def counter : Template :=
  let body := loopOver (.plain .array 1 [.ofConstant (.int 1) 1]) (.ofConstant (.bool true) 1)
    (.ofBody [
      .node .assign 1 "" [("capture", .bool false)] [.ofBody [.ofTarget "loop" 1] 1,
        .ofBody [.ofName "me" 1] 1],
      .ofPrint (.plain .negation 1 [.ofName "loop" 1]) 1] 1)
  ⟨"counter", "counter", body, none, 1, 1, [("b", body)]⟩

def counterPage : Frame := { page with blocks := counter.ownBlocks }

/-- The names of the variables and what `index0` is after some code that calls no method of a
container. -/
def countedAfter (code : Stmt) : Eval (List String × String) := do
  let calls := Render.callsAt page.env.barred page.root 2
  let _ ← counterPage.barred.run calls code
  let index ← printed (← counterPage.barred.value calls (.reading "index0" false 1))
  return ((← Eval.ofAct (Act.dictEntries 0)).names, index)

/-- A world in which `counter` has been made, and the variables of the page are a dict that looks like
the account of a loop. -/
def counterWorld (me : Value) : World :=
  { pageWorld [(.text "index0", .int 0), (.text "index", .int 1), (.text "me", me),
      (.text "counter", .template "counter" "counter")] with
    cache := [("counter", counter)] }

/-- A template that is included, or a block that is shown, does change the variables if it gets hold of
them and they look like the account of a loop: its rounds are counted there. -/
theorem scope_counted_elsewhere :
    Gives (countedAfter .skip) (counterWorld .null) (["index0", "index", "me", "counter"], "0") ∧
    Gives (countedAfter (.inclusion (.reading "counter" false 1)
      (some (.hash [.constant (.text "me"), .context])) false false 1 1)) (counterWorld .null)
      (["index0", "index", "me", "counter", "first"], "1") ∧
    Gives (countedAfter (.block "b" 1)) (counterWorld (.dict 0))
      (["index0", "index", "me", "counter", "first"], "1") ∧
    Gives (countedAfter (.print (.blockCall (.constant (.text "b"))) 1)) (counterWorld (.dict 0))
      (["index0", "index", "me", "counter", "first"], "1") := by
  decide +kernel

end Frame
end Stencil
