import Stencil.Proofs.Careful

/-!
# Loops as they are written

A loop in a template has targets, a sequence, a body, and perhaps a condition and an other body. If
its body mentions `loop`, its program is `ForLoop.code` of these, whether what it prints is escaped
or not (`ForLoop.of_loopNode`): a loop whose body ends by counting the round, and is run under the
condition.
-/

namespace Stencil

open Parse

/-- A loop whose body mentions `loop`. -/
structure ForLoop where
  key : String
  val : String
  sequence : Expr
  condition : Option Expr
  body : Stmt
  otherwise : Option Stmt
  /-- The lines of a failure: before and after a round, when it is asked whether there was one, and
  at the end. -/
  mark : Int
  roundMark : Int
  elseMark : Int
  endMark : Int

namespace ForLoop

variable (f : ForLoop)

def flags : LoopFlags := ⟨true, f.condition.isSome, f.otherwise.isSome⟩

def round : Stmt := .seq f.body (.seq (.round f.flags f.roundMark) .skip)

/-- What is run for a pair: a round, if the pair is accepted. -/
def pass : Stmt :=
  match f.condition with
  | none => f.round
  | some e => .branch e f.round .skip f.mark

def code : Stmt :=
  .loop f.key f.val f.sequence f.flags f.pass (f.otherwise.getD .skip) f.mark f.elseMark f.endMark

variable {f} in
theorem code_injective {g : ForLoop} (h : f.code = g.code) : f = g := by
  obtain ⟨key, val, sequence, condition, body, otherwise, mark, roundMark, elseMark, endMark⟩ := f
  obtain ⟨key', val', sequence', condition', body', otherwise', _, _, _, _⟩ := g
  cases condition <;> cases condition' <;> cases otherwise <;> cases otherwise' <;>
    simp_all [code, pass, round, flags]

/-- Whether the loop does not get into the way of its own account: its body sets neither `loop` nor
`_parent`, its targets are others than these, and others than the variable that tells whether there
was a round, if pairs can be refused. -/
def fair : Bool :=
  f.body.tame false && Loop.free f.key && Loop.free f.val &&
    (f.condition.isNone || f.otherwise.isNone || (f.key != "_iterated" && f.val != "_iterated"))

theorem fair_iff {f : ForLoop} : f.fair = true ↔
    f.body.tame false = true ∧ Loop.free f.key = true ∧ Loop.free f.val = true ∧
      (f.condition.isSome = true → f.otherwise.isSome = true →
        f.key ≠ "_iterated" ∧ f.val ≠ "_iterated") := by
  unfold fair
  cases f.condition <;> cases f.otherwise <;> simp [and_assoc]

end ForLoop

/-! ## Trees of loops -/

namespace Autoescape

theorem text_apply (strategy : String) (n : Node) (key : String) :
    (apply strategy n).text key = n.text key := by
  cases n with
  | absent => rfl
  | node kind line tag attrs children =>
    rw [apply]
    split <;> rfl

theorem line_apply (strategy : String) (n : Node) : (apply strategy n).line = n.line := by
  cases n with
  | absent => rfl
  | node kind line tag attrs children =>
    rw [apply]
    split <;> rfl

theorem isAbsent_apply (strategy : String) (n : Node) :
    (apply strategy n).isAbsent = n.isAbsent := by
  cases n with
  | absent => rfl
  | node kind line tag attrs children =>
    rw [apply]
    split <;> rfl

theorem apply_flaggedLoop (strategy : String) (flags : List (String × Attr)) (line : Int)
    (key value sequence condition body otherwise : Node) :
    apply strategy (flaggedLoop flags line key value sequence condition body otherwise) =
      flaggedLoop flags line (apply strategy key) (apply strategy value)
        (apply strategy sequence) (apply strategy condition) (apply strategy body)
        (apply strategy otherwise) := by
  unfold flaggedLoop loopPass loopRound
  simp only [text_apply, line_apply, isAbsent_apply]
  cases condition.isAbsent <;> rfl

end Autoescape

open Program (partOf)

namespace Program

theorem stmt_round {conditional hasElse : Bool} {line mark after : Int} {body : Node} {code : Stmt}
    (h : (partOf (loopRound (loopFlags true conditional hasElse) line body)).stmt mark =
      some (code, after)) :
    ∃ b, (partOf body).stmt mark = some (b, after) ∧
      code = .seq b (.seq (.round ⟨true, conditional, hasElse⟩ after) .skip) := by
  change sequence [partOf body, _] mark = _ at h
  obtain ⟨⟨b, m⟩, hb, h⟩ := Option.bind_eq_some_iff.1 h
  cases h
  exact ⟨b, hb, rfl⟩

theorem stmt_pass {hasElse : Bool} {line after : Int} {condition body : Node} {code : Stmt}
    (h : (partOf (loopPass (loopFlags true (!condition.isAbsent) hasElse) line condition
      body)).stmt line = some (code, after)) :
    ∃ test b, (partOf body).stmt line = some (b, after) ∧ test.isSome = !condition.isAbsent ∧
      (∀ e, test = some e → (partOf condition).expr = some e) ∧
      code = match test with
        | none => .seq b (.seq (.round ⟨true, !condition.isAbsent, hasElse⟩ after) .skip)
        | some e => .branch e (.seq b (.seq (.round ⟨true, !condition.isAbsent, hasElse⟩ after) .skip))
          .skip line := by
  cases hcondition : condition.isAbsent with
  | true =>
    rw [loopPass, hcondition] at h
    obtain ⟨b, hb, rfl⟩ := stmt_round h
    exact ⟨none, b, hb, rfl, nofun, rfl⟩
  | false =>
    rw [loopPass, hcondition] at h
    change branches _ [partOf condition, _] line = _ at h
    obtain ⟨e, he, h⟩ := Option.bind_eq_some_iff.1 h
    obtain ⟨⟨round, m⟩, hround, h⟩ := Option.bind_eq_some_iff.1 h
    cases h
    obtain ⟨b, hb, rfl⟩ := stmt_round hround
    exact ⟨some e, b, hb, rfl, fun _ is => he.trans is, rfl⟩

theorem loop?_eq_some {n : Node} {sequence body otherwise : Part} {after : Int} {code : Stmt}
    (h : loop? n sequence body otherwise = some (code, after)) :
    ∃ seq inner elseMark other, sequence.expr = some seq ∧
      body.stmt n.line = some (inner, elseMark) ∧
      (if n.flag "else" then otherwise.stmt elseMark else some (.skip, elseMark)) =
        some (other, after) ∧
      code = .loop (n.text "key_target") (n.text "value_target") seq (flags n) inner other n.line
        elseMark after := by
  simp only [loop?, bind, Option.bind_eq_some_iff, pure, Prod.exists] at h
  obtain ⟨seq, hseq, inner, elseMark, hinner, h⟩ := h
  split at h
  · simp only [Option.bind_eq_some_iff, Prod.exists] at h
    obtain ⟨other, _, hother, h⟩ := h
    cases h
    exact ⟨seq, inner, elseMark, other, hseq, hinner, by rwa [if_pos ‹_›], rfl⟩
  · cases h
    exact ⟨seq, inner, _, .skip, hseq, hinner, by rw [if_neg ‹_›], rfl⟩

end Program

namespace ForLoop

/-- The parts of a loop are those of the trees it is written with. -/
structure MadeOf (f : ForLoop) (line : Int) (key value sequence condition body otherwise : Node) :
    Prop where
  key : f.key = key.text "name"
  val : f.val = value.text "name"
  sequence : (partOf sequence).expr = some f.sequence
  conditional : f.condition.isSome = !condition.isAbsent
  condition : ∀ e, f.condition = some e → (partOf condition).expr = some e
  body : (partOf body).stmt line = some (f.body, f.roundMark)
  hasElse : f.otherwise.isSome = !otherwise.isAbsent
  otherwise : ∀ other, f.otherwise = some other →
    (partOf otherwise).stmt f.elseMark = some (other, f.endMark)

variable {line mark after : Int} {key value sequence condition body otherwise : Node} {code : Stmt}

theorem of_flaggedLoop
    (h : (partOf (flaggedLoop
      (loopFlags true (!condition.isAbsent) (!otherwise.isAbsent)) line key value sequence
      condition body otherwise)).stmt mark = some (code, after)) :
    ∃ f : ForLoop, f.code = code ∧ f.MadeOf line key value sequence condition body otherwise := by
  obtain ⟨seq, inner, elseMark, other, hseq, hinner, hother, rfl⟩ := Program.loop?_eq_some h
  obtain ⟨test, b, hb, hconditional, htest, rfl⟩ := Program.stmt_pass hinner
  change (if !otherwise.isAbsent then (partOf otherwise).stmt elseMark else some (.skip, elseMark)) =
    some (other, after) at hother
  -- the lines at which the parts were left become its marks
  let f : ForLoop :=
    { key := key.text "name", val := value.text "name", sequence := seq, condition := test, body := b,
      otherwise := if otherwise.isAbsent then none else some other, mark := line,
      roundMark := elseMark, elseMark := elseMark, endMark := after }
  have hasElse : f.otherwise.isSome = !otherwise.isAbsent := by
    simp only [f]
    cases otherwise.isAbsent <;> rfl
  have hflags : f.flags = ⟨true, !condition.isAbsent, !otherwise.isAbsent⟩ := by
    unfold ForLoop.flags
    rw [hasElse, ← hconditional]
  have helse : f.otherwise.getD .skip = other ∧ ∀ e, f.otherwise = some e →
      (partOf otherwise).stmt f.elseMark = some (e, f.endMark) := by
    simp only [f]
    cases habsent : otherwise.isAbsent with
    | true =>
      rw [habsent] at hother
      cases hother
      exact ⟨rfl, nofun⟩
    | false =>
      rw [habsent] at hother
      exact ⟨rfl, fun e is => Option.some.inj is ▸ hother⟩
  refine ⟨f, ?_, rfl, rfl, hseq, hconditional, htest, hb, hasElse, helse.2⟩
  unfold ForLoop.code
  rw [helse.1, hflags]
  unfold ForLoop.pass ForLoop.round
  rw [hflags]
  rfl

/-- **The program of a loop whose body mentions `loop` is the code of a `ForLoop`**, with or without
escaping. -/
theorem of_loopNode {escape : Node → Node}
    (hescape : escape = id ∨ ∃ strategy, escape = Autoescape.apply strategy)
    (hnames : body.names "loop" = true)
    (h : (partOf (escape (loopNode line key value sequence condition body otherwise))).stmt
      mark = some (code, after)) :
    ∃ f : ForLoop, f.code = code ∧
      f.MadeOf line (escape key) (escape value) (escape sequence) (escape condition) (escape body)
        (escape otherwise) := by
  rw [loopNode, hnames] at h
  rcases hescape with rfl | ⟨strategy, rfl⟩
  · exact of_flaggedLoop h
  · rw [Autoescape.apply_flaggedLoop, ← Autoescape.isAbsent_apply strategy condition,
      ← Autoescape.isAbsent_apply strategy otherwise] at h
    exact of_flaggedLoop h

end ForLoop

end Stencil
