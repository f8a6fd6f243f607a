import Stencil.Proofs.Insulation
import Stencil.Proofs.Ledger

/-!
# The cache does not show

An environment answers requests one after another: to load a template, to make one from a source
alone, to render one. Templates that have been made are kept, and containers of earlier renderings
are still there; but an answer depends on neither. It is the same as if the request were the first
one (`Environment.answers_eq`).

The counts are exact: every load is either a hit or a miss, a template that can be made is missed
just once, and one that cannot be made is missed whenever it is asked for
(`Environment.cache_transparent`).

A template is kept under a digest of its name and its source. That digests of different texts are
different is assumed, for the names and sources that are loaded.
-/

namespace Stencil

open List
open Step (final)

/-! ## Loads and the cache -/

namespace Load

variable {env : Environment} {P : Load → Prop} {b : Books} {l : Load}

def text (l : Load) : String := l.name ++ "\x00" ++ l.source

/-- Some loads are kept apart: no two of them under the same name of a program. -/
def Apart (P : Load → Prop) : Prop := ∀ l l', P l → P l' → l.unit = l'.unit → l = l'

/-- What is in the cache for some loads is what making their templates gives. -/
def Sound (env : Environment) (P : Load → Prop) (b : Books) : Prop :=
  ∀ l, P l → ∀ t, b.cache.lookup l.unit = some t → l.made env = .ok t

/-- Those of some loads whose template is not there yet. -/
def missed (env : Environment) : Books → List Load → List Load
  | _, [] => []
  | b, l :: ls =>
    if (b.cache.lookup l.unit).isSome then missed env (l.enter env b) ls
    else l :: missed env (l.enter env b) ls

theorem enter_hit (there : (b.cache.lookup l.unit).isSome = true) :
    l.enter env b = { b with hits := b.hits + 1 } := by
  unfold enter
  rw [if_pos there]

variable {t : Template} {f : Failure} {loads : List Load}

theorem enter_made (there : ¬ (b.cache.lookup l.unit).isSome = true) (made : l.made env = .ok t) :
    l.enter env b = { b with misses := b.misses + 1, cache := (l.unit, t) :: b.cache } := by
  unfold enter
  rw [if_neg there, made]

theorem enter_failed (there : ¬ (b.cache.lookup l.unit).isSome = true)
    (made : l.made env = .error f) : l.enter env b = { b with misses := b.misses + 1 } := by
  unfold enter
  rw [if_neg there, made]

theorem lookup_enter (l : Load) (unit : String) :
    (l.enter env b).cache.lookup unit = b.cache.lookup unit ∨
      unit = l.unit ∧ ∃ t, l.made env = .ok t ∧ (l.enter env b).cache.lookup unit = some t := by
  by_cases there : (b.cache.lookup l.unit).isSome = true
  · rw [enter_hit there]
    exact Or.inl rfl
  · cases made : l.made env with
    | error f =>
      rw [enter_failed there made]
      exact Or.inl rfl
    | ok t =>
      rw [enter_made there made]
      dsimp only
      rw [lookup_cons]
      by_cases same : unit = l.unit
      · rw [beq_iff_eq.2 same]
        exact Or.inr ⟨same, t, rfl, rfl⟩
      · rw [beq_eq_false_iff_ne.2 same]
        exact Or.inl rfl

theorem Sound.enter (apart : Apart P) (sound : Sound env P b) (hl : P l) :
    Sound env P (l.enter env b) := by
  intro l' hl' t found
  rcases lookup_enter l l'.unit with same | ⟨unit, t', made, found'⟩
  · exact sound l' hl' t (same ▸ found)
  · rw [apart l' l hl' hl unit, made, ← Option.some.inj (found'.symm.trans found)]

theorem Sound.enterAll (apart : Apart P) (hloads : ∀ l ∈ loads, P l) (sound : Sound env P b) :
    Sound env P (enterAll env b loads) := by
  induction loads generalizing b with
  | nil => exact sound
  | cons l ls ih =>
    exact ih (fun l' h => hloads l' (mem_cons_of_mem _ h))
      (sound.enter apart (hloads l mem_cons_self))

theorem hits_enter (l : Load) :
    (l.enter env b).hits = b.hits + if (b.cache.lookup l.unit).isSome then 1 else 0 := by
  by_cases there : (b.cache.lookup l.unit).isSome = true
  · rw [enter_hit there, if_pos there]
  · rw [if_neg there]
    cases made : l.made env with
    | ok t => rw [enter_made there made]; rfl
    | error f => rw [enter_failed there made]; rfl

theorem misses_enter (l : Load) :
    (l.enter env b).misses = b.misses + if (b.cache.lookup l.unit).isSome then 0 else 1 := by
  by_cases there : (b.cache.lookup l.unit).isSome = true
  · rw [enter_hit there, if_pos there]; rfl
  · rw [if_neg there]
    cases made : l.made env with
    | ok t => rw [enter_made there made]
    | error f => rw [enter_failed there made]

theorem enterAll_cons (l : Load) (ls : List Load) :
    enterAll env b (l :: ls) = enterAll env (l.enter env b) ls :=
  rfl

theorem missed_cons (l : Load) (ls : List Load) :
    missed env b (l :: ls) = if (b.cache.lookup l.unit).isSome then missed env (l.enter env b) ls
      else l :: missed env (l.enter env b) ls :=
  rfl

theorem hits_add_misses (env : Environment) (b : Books) (loads : List Load) :
    (enterAll env b loads).hits + (enterAll env b loads).misses =
      b.hits + b.misses + loads.length := by
  induction loads generalizing b with
  | nil => rfl
  | cons l ls ih =>
    rw [enterAll_cons, ih, hits_enter, misses_enter, length_cons]
    split <;> omega

theorem misses_enterAll (env : Environment) (b : Books) (loads : List Load) :
    (enterAll env b loads).misses = b.misses + (missed env b loads).length := by
  induction loads generalizing b with
  | nil => rfl
  | cons l ls ih =>
    rw [enterAll_cons, ih, misses_enter, missed_cons]
    split
    · rfl
    · rw [length_cons]
      omega

theorem count_missed_of_made (apart : Apart P) (hloads : ∀ l ∈ loads, P l) (hl : P l)
    (made : l.made env = .ok t) :
    (missed env b loads).count l = if (b.cache.lookup l.unit).isSome = true ∨ l ∉ loads then 0 else
      1 := by
  induction loads generalizing b with
  | nil =>
    rw [if_pos (Or.inr not_mem_nil)]
    rfl
  | cons l' ls ih =>
    obtain ⟨hl', hls⟩ := forall_mem_cons.1 hloads
    rw [missed_cons]
    by_cases same : l' = l
    · subst same
      -- once it was asked for it is in the cache, and never missed again
      have gone : (l'.enter env b).cache.lookup l'.unit ≠ none := by
        by_cases there : (b.cache.lookup l'.unit).isSome = true
        · rw [enter_hit there]
          exact Option.isSome_iff_ne_none.1 there
        · rw [enter_made there made]
          simp
      have rest : (missed env (l'.enter env b) ls).count l' = 0 := by
        rw [ih hls, if_pos (Or.inl (Option.isSome_iff_ne_none.2 gone))]
      split
      · next there => rw [rest, if_pos (Or.inl there)]
      · next there =>
        rw [count_cons_self, rest, if_neg]
        exact not_or.2 ⟨there, not_not.2 mem_cons_self⟩
    · have other : (l'.enter env b).cache.lookup l.unit = b.cache.lookup l.unit := by
        rcases lookup_enter l' l.unit with kept | ⟨unit, -⟩
        · exact kept
        · exact absurd (apart l l' hl hl' unit).symm same
      have rest := ih (b := l'.enter env b) hls
      rw [other] at rest
      have member : l ∉ l' :: ls ↔ l ∉ ls := by simp [Ne.symm same]
      simp only [member]
      split
      · exact rest
      · rw [count_cons_of_ne same]
        exact rest

/-- A template that cannot be made is missed whenever it is asked for. -/
theorem count_missed_of_failed (apart : Apart P) (hloads : ∀ l ∈ loads, P l) (sound : Sound env P b)
    (hl : P l) (made : l.made env = .error f) : (missed env b loads).count l = loads.count l := by
  induction loads generalizing b with
  | nil => rfl
  | cons l' ls ih =>
    obtain ⟨hl', hls⟩ := forall_mem_cons.1 hloads
    have rest := ih hls (sound.enter apart hl')
    rw [missed_cons]
    split
    · next there =>
      have other : l' ≠ l := by
        rintro rfl
        obtain ⟨t, found⟩ := Option.isSome_iff_exists.1 there
        cases made.symm.trans (sound l' hl' t found)
      rw [rest, count_cons_of_ne other]
    · rw [count_cons, count_cons, rest]

end Load

/-! ## Names of programs -/

theorem hexDigit_ne_nul (n : Nat) (hn : n < 16) : Text.hexDigit n ≠ '\x00' := by
  have all : ∀ n : Fin 16, Text.hexDigit n ≠ '\x00' := by decide
  exact all ⟨n, hn⟩

theorem nul_not_mem_hexDigits (width n : Nat) : '\x00' ∉ Text.hexDigits width n := by
  induction width generalizing n with
  | zero => exact not_mem_nil
  | succ width ih =>
    rw [Text.hexDigits, mem_append, mem_singleton]
    rintro (h | h)
    · exact ih _ h
    · exact hexDigit_ne_nul _ (Nat.mod_lt _ (by decide)) h.symm

theorem nul_not_mem_sha256 (s : String) : '\x00' ∉ (Digest.sha256 s).toList := by
  unfold Digest.sha256 Digest.ofBytes
  dsimp only
  rw [String.toList_ofList, mem_flatMap]
  rintro ⟨w, -, h⟩
  exact nul_not_mem_hexDigits 8 _ h

theorem nul_not_mem_stringTemplateName (source : String) :
    '\x00' ∉ (Environment.stringTemplateName source).toList := by
  unfold Environment.stringTemplateName
  rw [String.toList_append, mem_append]
  rintro (h | h)
  · exact absurd h (by decide)
  · exact nul_not_mem_sha256 source h

theorem eq_of_append_cons {α : Type} {c : α} : ∀ {xs ys zs us : List α}, c ∉ xs → c ∉ ys →
    xs ++ c :: zs = ys ++ c :: us → xs = ys ∧ zs = us
  | [], [], _, _, _, _, h => ⟨rfl, (List.cons.inj h).2⟩
  | [], y :: ys, _, _, _, hy, h => absurd (mem_cons.2 (Or.inl (List.cons.inj h).1)) hy
  | x :: xs, [], _, _, hx, _, h => absurd (mem_cons.2 (Or.inl (List.cons.inj h).1.symm)) hx
  | x :: xs, y :: ys, _, _, hx, hy, h => by
    obtain ⟨rfl, rest⟩ := List.cons.inj h
    obtain ⟨rfl, after⟩ := eq_of_append_cons (fun m => hx (mem_cons_of_mem _ m))
      (fun m => hy (mem_cons_of_mem _ m)) rest
    exact ⟨rfl, after⟩

theorem Load.eq_of_text {l l' : Load} (hl : '\x00' ∉ l.name.toList) (hl' : '\x00' ∉ l'.name.toList)
    (same : l.text = l'.text) : l = l' := by
  have chars := congrArg String.toList same
  unfold Load.text at chars
  simp only [String.toList_append, append_assoc] at chars
  obtain ⟨name, source⟩ := eq_of_append_cons hl hl' chars
  cases l
  cases l'
  rw [Load.mk.injEq]
  exact ⟨String.toList_inj.1 name, String.toList_inj.1 source⟩

/-! ## Requests -/

/-- What can be asked of an environment. -/
inductive Request
  | load (name : String)
  | create (source : String)
  /-- To render the template of a name with some variables. -/
  | render (name : String) (bindings : List (String × Plain))

inductive Answer
  | template (t : Template)
  | output (text : String)

namespace Plain

mutual

/-- Data that holds no objects and no values, in which the keys of maps are texts. -/
def isData : Plain → Bool
  | .list _ items => allData items
  | .map keys values => allTexts keys && allData values
  | .object _ => false
  | .record _ => false
  | .value _ => false
  | _ => true

def allData : List Plain → Bool
  | [] => true
  | d :: ds => isData d && allData ds

def allTexts : List Plain → Bool
  | [] => true
  | .text _ :: ds => allTexts ds
  | _ :: _ => false

end

theorem fitsAll_of_allTexts {p : Pairing} : ∀ {ds : List Plain}, allTexts ds = true → FitsAll p ds
  | [], _ => trivial
  | .text _ :: _, h => ⟨trivial, fitsAll_of_allTexts h⟩

mutual

theorem fits_of_isData {p : Pairing} {d : Plain} (h : d.isData = true) : d.Fits p := by
  cases d with
  | list element items => exact fitsAll_of_allData h
  | map keys values =>
    obtain ⟨hkeys, hvalues⟩ := Bool.and_eq_true_iff.1 h
    exact ⟨fitsAll_of_allTexts hkeys, fitsAll_of_allData hvalues⟩
  | object | record | value => cases h
  | _ => trivial

theorem fitsAll_of_allData {p : Pairing} {ds : List Plain} (h : allData ds = true) : FitsAll p ds := by
  cases ds with
  | nil => trivial
  | cons d ds =>
    obtain ⟨hd, hds⟩ := Bool.and_eq_true_iff.1 h
    exact ⟨fits_of_isData hd, fitsAll_of_allData hds⟩

end

end Plain

def Request.isPlain : Request → Bool
  | .render _ bindings => (Plain.ofEntries bindings).isData
  | _ => true

namespace Environment

variable {env : Environment}

def perform (env : Environment) : Request → Task Answer
  | .load name => return .template (← env.loadTemplate name)
  | .create source => return .template (← env.createTemplate source)
  | .render name bindings => return .output (← env.render name bindings)

def answer (env : Environment) (w : World) (r : Request) : Except Failure Answer :=
  match env.perform r w with
  | .ok a _ => .ok a
  | .error f _ => .error f

def after (env : Environment) (w : World) (r : Request) : World := final (env.perform r w)

def answers (env : Environment) : World → List Request → List (Except Failure Answer)
  | _, [] => []
  | w, r :: rs => env.answer w r :: answers env (env.after w r) rs

/-- The loads that requests perform, one after another. -/
inductive PerformsAll (env : Environment) : World → List Request → List Load → Prop
  | nil (w : World) : PerformsAll env w [] []
  | cons {w : World} {r : Request} {rs : List Request} {loads more : List Load}
      (head : Performs env (env.perform r) w loads) (tail : PerformsAll env (env.after w r) rs more) :
      PerformsAll env w (r :: rs) (loads ++ more)

/-- The templates that requests may load: those there are, and those that are made from a source
alone. -/
def Loadable (env : Environment) (requests : List Request) (l : Load) : Prop :=
  env.source l.name = .ok l.source ∨
    Request.create l.source ∈ requests ∧ l.name = stringTemplateName l.source

variable {rs requests : List Request} {r : Request} {name source : String}

theorem PerformsAll.books {w : World} {loads : List Load} (h : PerformsAll env w rs loads) :
    (rs.foldl env.after w).books = Load.enterAll env w.books loads := by
  induction h with
  | nil w => rfl
  | @cons w r rs loads more head tail ih =>
    rw [foldl_cons, ih, after, head.books, Load.enterAll, Load.enterAll, Load.enterAll,
      foldl_append]

theorem performs_perform (hr : r ∈ requests) (w : World) :
    ∃ loads, (∀ l ∈ loads, env.Loadable requests l) ∧ Performs env (env.perform r) w loads := by
  have traced : Traced env (env.perform r) →
      ∃ loads, (∀ l ∈ loads, env.Loadable requests l) ∧ Performs env (env.perform r) w loads := by
    intro h
    obtain ⟨loads, there, performs⟩ := h w
    exact ⟨loads, fun l hl => Or.inl (there l hl), performs⟩
  cases r with
  | load name => exact traced ((Traced.loadTemplate name).bind fun _ _ _ _ => .pure _)
  | create source =>
    let l : Load := ⟨stringTemplateName source, source⟩
    have loaded : Performs env (env.createTemplate source) w [l] := .load l w
    refine ⟨[l], forall_mem_singleton.2 (Or.inr ⟨hr, rfl⟩), ?_⟩
    cases done : env.createTemplate source w with
    | ok t w' => exact .bind done loaded (.pure _ _)
    | error f w' => exact .bind_failed done loaded
  | render name bindings =>
    refine traced (Traced.bind ((Traced.loadTemplate name).bind fun _ t _ _ => ?_) fun _ _ _ _ => .pure _)
    refine (Traced.actInTask _).bind fun _ v _ _ => ?_
    cases v with
    | dict r => exact (((env.traces t.unit).callsAt Render.depth).display t rfl []).1.finish _
    | _ => exact .pure _

/-! ## Answers -/

variable {P : Load → Prop} {w v : World}

/-- From a sound cache, loading comes to what making the template gives. -/
theorem found_of_sound (sound : Load.Sound env P w.books) {l : Load} (hl : P l) :
    env.found w l.name l.source = l.made env := by
  unfold found
  cases there : w.cache.lookup (unitName l.name l.source) with
  | some t => exact (sound l hl t there).symm
  | none => rfl

theorem load_outcome (same : env.found w name source = env.found v name source) :
    Step.Outcome (fun _ _ => True) Eq (env.load name source w) (env.load name source v) := by
  cases here : env.found w name source with
  | ok t =>
    obtain ⟨w', loaded, -⟩ := load_of_found here
    obtain ⟨v', loaded', -⟩ := load_of_found (same ▸ here)
    rw [loaded, loaded']
    exact .ok rfl trivial
  | error f =>
    rw [load_of_not_found here, load_of_not_found (same ▸ here)]
    exact .error f trivial

theorem answer_of_outcome {E : World → World → Prop}
    (h : Step.Outcome E Eq (env.perform r w) (env.perform r v)) :
    env.answer w r = env.answer v r := by
  unfold answer
  rcases h.cases with ⟨a, b, w', v', here, there, rfl, -⟩ | ⟨f, w', v', here, there, -⟩
  · rw [here, there]
  · rw [here, there]

/-- **An answer does not depend on what was asked before**, as long as the cache is sound. -/
theorem answer_eq (impartial : env.Impartial) (hw : Load.Sound env (env.Loadable requests) w.books)
    (hv : Load.Sound env (env.Loadable requests) v.books) (hr : r ∈ requests)
    (plain : r.isPlain = true) : env.answer w r = env.answer v r := by
  let p := Pairing.ahead w.store v.store fun _ => False
  have mirror : env.Mirror p (env.Agree p.templates) :=
    mirror_of_agree ⟨False.elim, False.elim⟩ (impartial.methods p) (impartial.callables p)
  have worlds : World.Alike p (env.Agree p.templates) w v :=
    ⟨Store.alike_ahead _ _ _, fun _ met => met.elim, fun name source given =>
      have loadable : env.Loadable requests ⟨name, source⟩ := Or.inl given
      (found_of_sound hw loadable).trans (found_of_sound hv loadable).symm⟩
  cases r with
  | load name =>
    exact answer_of_outcome (((mirror.loads name).bind_eq fun _ => .pure rfl) w v worlds)
  | create source =>
    let l : Load := ⟨stringTemplateName source, source⟩
    have loadable : env.Loadable requests l := Or.inr ⟨hr, rfl⟩
    have loaded := load_outcome ((found_of_sound hw loadable).trans (found_of_sound hv loadable).symm)
    exact answer_of_outcome (loaded.map Answer.template)
  | render name bindings =>
    exact answer_of_outcome (((mirrors_render mirror name (Plain.fits_of_isData plain)).bind_eq
      fun _ => .pure rfl) w v worlds)

/-- Requests are answered as if each were the first one, and the cache stays sound. -/
theorem answers_eq (impartial : env.Impartial) (apart : Load.Apart (env.Loadable requests))
    (hrs : ∀ r ∈ rs, r ∈ requests) (plain : ∀ r ∈ rs, r.isPlain = true)
    (hw : Load.Sound env (env.Loadable requests) w.books)
    (hv : Load.Sound env (env.Loadable requests) v.books) :
    env.answers w rs = rs.map (env.answer v) ∧ ∃ loads, (∀ l ∈ loads, env.Loadable requests l) ∧
      PerformsAll env w rs loads := by
  induction rs generalizing w with
  | nil => exact ⟨rfl, [], forall_mem_nil _, .nil w⟩
  | cons r rs ih =>
    obtain ⟨hr, hrs⟩ := forall_mem_cons.1 hrs
    obtain ⟨hplain, plain⟩ := forall_mem_cons.1 plain
    obtain ⟨loads, loadable, performs⟩ := performs_perform hr w
    have sound : Load.Sound env (env.Loadable requests) (env.after w r).books := by
      rw [after, performs.books]
      exact hw.enterAll apart loadable
    obtain ⟨same, more, loadable', performs'⟩ := ih hrs plain sound
    refine ⟨?_, loads ++ more, forall_mem_append.2 ⟨loadable, loadable'⟩, .cons performs performs'⟩
    rw [answers, map_cons, same, answer_eq impartial hw hv hr hplain]

/-- Digests of different texts are different, as far as names and sources are concerned that may be
loaded. -/
def DigestsApart (env : Environment) (requests : List Request) : Prop :=
  ∀ l l', env.Loadable requests l → env.Loadable requests l' →
    ((Digest.sha256 l.text).take 32).toString = ((Digest.sha256 l'.text).take 32).toString →
      l.text = l'.text

theorem apart_of_digests
    (named : ∀ name source, env.source name = .ok source → '\x00' ∉ name.toList)
    (digests : env.DigestsApart requests) : Load.Apart (env.Loadable requests) := by
  have unmarked : ∀ l, env.Loadable requests l → '\x00' ∉ l.name.toList := by
    rintro l (given | ⟨-, name⟩)
    · exact named _ _ given
    · rw [name]
      exact nul_not_mem_stringTemplateName _
  intro l l' hl hl' same
  refine Load.eq_of_text (unmarked l hl) (unmarked l' hl') (digests l l' hl hl' ?_)
  exact String.append_right_inj _ |>.1 same

/-- **The cache does not show, and its counts are exact.**  Requests with plain data are answered as
if each were the first one. Every load adds one to the hits or to the misses, and nothing else that the
requests do counts: whatever loads they are made of, there are as many as hits and misses. A template
that can be made is missed once, one that cannot be made is missed each time, and a load that fails
leaves the cache as it was. -/
theorem cache_transparent (impartial : env.Impartial)
    (named : ∀ name source, env.source name = .ok source → '\x00' ∉ name.toList)
    {requests : List Request} (plain : ∀ r ∈ requests, r.isPlain = true)
    (digests : env.DigestsApart requests) :
    env.answers .start requests = requests.map (env.answer .start) ∧
    (∀ name source w, (final (env.load name source w)).hits + (final (env.load name source w)).misses =
      w.hits + w.misses + 1) ∧
    (∀ loads, PerformsAll env .start requests loads →
      (requests.foldl env.after .start).hits + (requests.foldl env.after .start).misses =
        loads.length) ∧
    ∃ loads, PerformsAll env .start requests loads ∧
      (requests.foldl env.after .start).misses =
        (Load.missed env World.start.books loads).length ∧
      (∀ l ∈ loads, ∀ t, l.made env = .ok t →
        (Load.missed env World.start.books loads).count l = 1) ∧
      (∀ l ∈ loads, ∀ f, l.made env = .error f →
        (Load.missed env World.start.books loads).count l = loads.count l) ∧
      ∀ l ∈ loads, ∀ w f w', env.load l.name l.source w = .error f w' →
        w'.cache = w.cache ∧ w'.hits = w.hits ∧ w'.misses = w.misses + 1 := by
  have apart := apart_of_digests named digests
  have sound : Load.Sound env (env.Loadable requests) World.start.books :=
    fun l _ t found => by cases found
  obtain ⟨same, loads, loadable, performs⟩ :=
    answers_eq impartial apart (fun _ h => h) plain sound sound
  refine ⟨same, fun name source w => ?_, fun loads performs => ?_, loads, performs, ?_,
    fun l hl t made => ?_, fun l hl f made => ?_, ?_⟩
  · have counts := Load.hits_add_misses env w.books [⟨name, source⟩]
    rw [Load.enterAll_cons, ← Load.books_load] at counts
    exact counts
  · have counts := Load.hits_add_misses env World.start.books loads
    rw [← performs.books] at counts
    exact counts.trans (Nat.zero_add _)
  · have counts := Load.misses_enterAll env World.start.books loads
    rw [← performs.books] at counts
    exact counts.trans (Nat.zero_add _)
  · rw [Load.count_missed_of_made apart loadable (loadable l hl) made, if_neg]
    exact not_or.2 ⟨fun there => (by cases there), not_not.2 hl⟩
  · exact Load.count_missed_of_failed apart loadable sound (loadable l hl) made
  · intro l _ w f w' failed
    obtain ⟨-, -, rfl⟩ := load_error.1 failed
    exact ⟨rfl, rfl, rfl⟩

/-- Three templates: one that includes another, and one that cannot be made. -/
def shelf : List (String × String) :=
  [("page", "\x7b% include 'part' %\x7d"), ("part", "\x7b\x7b x \x7d\x7d"), ("bad", "\x7b% if %\x7d")]

def shelfEnvironment : Environment :=
  ofCore {} (fun name => (shelf.lookup name).elim (.error .nothingFound) .ok) ⟨#[]⟩

def shelfRequests : List Request :=
  [.render "page" [("x", .int 1)], .load "bad", .create "\x7b\x7b x \x7d\x7d",
    .render "page" [("x", .list "" [.text "y"])], .load "bad"]

theorem mem_shelf (given : shelfEnvironment.source name = .ok source) : (name, source) ∈ shelf := by
  change (shelf.lookup name).elim (Except.error Failure.nothingFound) .ok = .ok source at given
  cases found : shelf.lookup name with
  | some source' =>
    rw [found] at given
    cases given
    exact mem_of_lookup found
  | none =>
    rw [found] at given
    cases given

theorem shelf_digests : shelfEnvironment.DigestsApart shelfRequests := by
  let loads : List Load := shelf.map (fun e => ⟨e.1, e.2⟩) ++
    [⟨stringTemplateName "\x7b\x7b x \x7d\x7d", "\x7b\x7b x \x7d\x7d"⟩]
  have listed : ∀ l, shelfEnvironment.Loadable shelfRequests l → l ∈ loads := by
    rintro ⟨name, source⟩ (given | ⟨asked, named⟩)
    · exact mem_append_left _ (mem_map.2 ⟨(name, source), mem_shelf given, rfl⟩)
    · obtain rfl : source = "\x7b\x7b x \x7d\x7d" := by simpa [shelfRequests] using asked
      obtain rfl : name = stringTemplateName "\x7b\x7b x \x7d\x7d" := named
      exact mem_append_right _ mem_cons_self
  have apart : ∀ l ∈ loads, ∀ l' ∈ loads,
      ((Digest.sha256 l.text).take 32).toString = ((Digest.sha256 l'.text).take 32).toString →
        l.text = l'.text := by
    decide +kernel
  exact fun l l' hl hl' => apart l (listed l hl) l' (listed l' hl')

theorem cache_transparent_shelf :
    shelfEnvironment.DigestsApart shelfRequests ∧
    shelfEnvironment.answers .start shelfRequests =
      shelfRequests.map (shelfEnvironment.answer .start) ∧
    ∃ loads, PerformsAll shelfEnvironment .start shelfRequests loads ∧
      (shelfRequests.foldl shelfEnvironment.after .start).hits +
        (shelfRequests.foldl shelfEnvironment.after .start).misses = loads.length ∧
      ∀ l ∈ loads, ∀ t, l.made shelfEnvironment = .ok t →
        (Load.missed shelfEnvironment World.start.books loads).count l = 1 := by
  have impartial : shelfEnvironment.Impartial := impartial_ofCore _ _ _
  have named : ∀ e ∈ shelf, '\x00' ∉ e.1.toList := by decide
  have plain : ∀ r ∈ shelfRequests, r.isPlain = true := by decide
  obtain ⟨same, -, counts, loads, performs, -, once, -⟩ := cache_transparent impartial
    (fun _ _ given => named _ (mem_shelf given)) plain shelf_digests
  exact ⟨shelf_digests, same, loads, performs, counts loads performs, once⟩

end Environment
end Stencil
