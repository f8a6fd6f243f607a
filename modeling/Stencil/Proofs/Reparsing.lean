import Stencil.Proofs.Readable

/-!
# Printed expressions are read back

`expression_print`: the tokens a term is printed with are read as the tree of the term, up to the
token behind them. There is one lemma for each kind of term, which makes it `Readable` if its parts
are, and `readable` is the recursion over all of them.
-/

namespace Stencil.Parse

open Content List Term

variable {v : Vocabulary}

theorem kind_node_ne (e : Term v) : e.node.kind ≠ .namedArgument := by
  cases e with
  | test negated =>
    rw [node]
    cases negated <;> simp [Node.ofTest, Node.ofCall, Node.plain, Node.kind]
  | unary op =>
    rw [node]
    exact (by decide : ∀ op ∈ Language.unaryOperators, op.2.kind ≠ .namedArgument) op.1 op.2
  | binary kind op =>
    rw [node]
    rintro rfl
    exact (by decide : ∀ op ∈ Language.binaryOperators, op.2.right ≠ .operand .namedArgument)
      op.1 op.2.1 op.2.2
  | _ =>
    rw [node]
    simp [Node.ofName, Node.ofConstant, Node.ofString, Node.leaf, Node.plain, Node.ofAccess,
      Node.ofCall, Node.kind]

theorem runs_memberItem (member : Member) (line : Int) (ts : List Content) :
    Runs (memberItem line) (member.print :: ts)
      fun found left => found.1.unlined = member.node ∧ left = ts := by
  cases member with
  | name s => exact runs_next (by simp [Member.print]) fun _ => runs_pure ⟨rfl, rfl⟩
  | number n =>
    refine runs_next (by simp [Member.print]) fun _ => ?_
    simp only [Member.print, numberConstant?_repr]
    exact runs_pure ⟨rfl, rfl⟩

section Terms

variable {layout : Layout v} (standard : v.Standard)

include standard

/-! ## Terms without suffixes -/

theorem readable_array {items : List (Term v)} (h : ∀ e ∈ items, Readable layout e) :
    Readable layout (.array items) := by
  have printed : (Term.array items).print layout =
      mark "[" :: (separated (Term.prints layout items) ++ [mark "]"]) := by rw [Term.print]
  refine readable_of_leadsTo standard ⟨_, _, printed, .inr ⟨"[", by decide, rfl⟩⟩
    fun depth short => ?_
  rw [printed] at short ⊢
  refine leadsTo_of_simple (by simp) (by simp) fun t rest _ => ?_
  rw [append_assoc, node]
  refine runs_current fun line => runs_if (fun _ => ?_) fun other => absurd rfl other
  exact runs_array h (by simp at short; omega) (t :: rest)

theorem readable_hash {entries : List (Term v × Term v)}
    (h : ∀ entry ∈ entries, Readable layout entry.1 ∧ Readable layout entry.2) :
    Readable layout (.hash entries) := by
  have printed : (Term.hash entries).print layout =
      mark "\x7b" :: (separated (Term.printEntries layout entries) ++ [mark "\x7d"]) := by
    rw [Term.print]
  refine readable_of_leadsTo standard ⟨_, _, printed, .inr ⟨"\x7b", by decide, rfl⟩⟩
    fun depth short => ?_
  rw [printed] at short ⊢
  refine leadsTo_of_simple (by simp) (by simp) fun t rest _ => ?_
  rw [append_assoc, node]
  refine runs_current fun line => runs_if (fun other => ?_) fun _ => ?_
  · exact absurd other (by simp [Content.onLine])
  refine runs_if (fun _ => ?_) fun other => absurd rfl other
  exact runs_hash standard h (by simp at short; omega) (t :: rest)

theorem readable_call (f : v.Function) {args : List (Option Variable × Term v)}
    (h : ∀ a ∈ args, Readable layout a.2) : Readable layout (.call f args) := by
  have printed : (call f args).print layout =
      (.name, f.1.1) :: enclosed (separated (printArguments layout args)) := by rw [print]
  refine readable_of_leadsTo standard ⟨_, _, printed, .inl (by simp)⟩ fun depth short => ?_
  rw [printed] at short ⊢
  refine leadsTo_of_simple (by simp) (by simp) fun t rest _ => ?_
  refine runs_current fun line => runs_next (by simp) fun _ => ?_
  simp only [Content.onLine, reserved?_eq_none]
  refine runs_testMark (runs_if (fun _ => ?_) fun other => absurd (by simp) other)
  simp only [length_cons, length_enclosed] at short
  refine (runs_arguments standard h (by omega) (t :: rest)).bind ?_
  rintro n _ ⟨hn, rfl⟩
  obtain ⟨registered, other⟩ := f.2
  split
  · next same => exact absurd (by simp [same]) other
  · next same => exact absurd (by simp [same]) other
  · refine runs_if (fun missing => ?_) fun _ => runs_pure ⟨?_, rfl⟩
    · simp [registered] at missing
    · simp [node, Node.ofCall, hn]

theorem readable_block {e : Term v} (h : Readable layout e) : Readable layout (.block e) := by
  have printed : (block e).print layout = (.name, "block") ::
      enclosed (separated (printArguments layout [(none, e)])) := by
    simp [print, printArguments, separated, labelled]
  refine readable_of_leadsTo standard ⟨_, _, printed, .inl (by simp)⟩ fun depth short => ?_
  rw [printed] at short ⊢
  refine leadsTo_of_simple (by simp) (by simp) fun t rest _ => ?_
  refine runs_current fun line => runs_next (by simp) fun _ => ?_
  simp only [Content.onLine, reserved?_words]
  refine runs_testMark (runs_if (fun _ => ?_) fun other => absurd (by simp) other)
  simp only [length_cons, length_enclosed] at short
  refine (runs_arguments standard (by simpa using h) (by omega) (t :: rest)).bind ?_
  rintro n _ ⟨hn, rfl⟩
  obtain ⟨argument, only, hargument⟩ : ∃ c, n.children = [c] ∧ c.unlined = e.node := by
    have below := congrArg Node.children hn
    rw [Node.children_unlined] at below
    simpa [Node.plain, Node.children, argumentNodes, Node.labelled, map_eq_cons_iff]
      using below
  simp only [only]
  have plain : argument.kind ≠ .namedArgument := by
    rw [← Node.kind_unlined, hargument]
    exact kind_node_ne e
  refine runs_if (fun named => absurd (eq_of_beq named) plain) fun _ => runs_pure ⟨?_, rfl⟩
  simp [node, Node.plain, hargument]

/-! ## Suffixes -/

/-- What follows an object is read as one more suffix of it. -/
theorem readable_of_suffix {object e : Term v} (h : Readable layout object) {m : String}
    (hm : m ∈ [".", "[", "|"]) {ts : List Content}
    (printed : e.print layout = layout.operand object (object.print layout) ++ mark m :: ts)
    (suffix : ∀ depth n t rest, ts.length ≤ depth → n.unlined = object.node → Follows t →
      Runs (if m = "|" then filter v (nested v depth) n else subscript (nested v depth) n)
        (mark m :: (ts ++ t :: rest)) fun n' left => n'.unlined = e.node ∧ left = t :: rest) :
    Readable layout e := by
  obtain ⟨first, behind, start, opens⟩ := h.operand_opens
  refine readable_of_leadsTo standard ⟨first, behind ++ mark m :: ts, ?_, opens⟩
    fun depth short t rest Q follows next => ?_
  · rw [printed, start, cons_append]
  rw [printed] at short ⊢
  rw [length_append, length_cons] at short
  rw [append_assoc]
  have paren : m ≠ "(" := by
    rintro rfl
    exact absurd hm (by decide)
  refine h.operand (by omega) (mark m) (ts ++ t :: rest) Q (follows_mark paren)
    fun n fuel hn enough => ?_
  obtain ⟨fuel, rfl⟩ : ∃ k, fuel = k + 1 := ⟨fuel - 1, by omega⟩
  have left : rest.length < fuel := by
    simp only [length_append, length_cons] at enough
    omega
  have read := suffix depth n t rest (by omega) hn follows
  -- the mark decides which of the two parsers goes on, so there are two cases
  refine runs_current fun line => runs_if (fun _ => ?_) fun other => absurd rfl other
  by_cases bar : m = "|"
  · subst bar
    rw [if_pos rfl] at read
    refine runs_if (fun other => absurd other (by simp [Content.onLine])) fun _ => ?_
    refine runs_if (fun _ => read.bind ?_) fun other => absurd rfl other
    rintro n' _ ⟨hn', rfl⟩
    exact next n' fuel hn' left
  · rw [if_neg bar] at read
    have item : (m == "." || m == "[") = true := by simpa [bar] using hm
    refine runs_if (fun _ => read.bind ?_) fun other => absurd item other
    rintro n' _ ⟨hn', rfl⟩
    exact next n' fuel hn' left

theorem readable_item {object : Term v} (h : Readable layout object) (member : Member) :
    Readable layout (.item object member) := by
  have printed : (item object member).print layout =
      layout.operand object (object.print layout) ++ mark "." :: [member.print] := by
    rw [print]
  refine readable_of_suffix standard h (by decide) printed fun depth n t rest _ hn follows => ?_
  rw [if_neg (by decide)]
  refine runs_next (by simp) fun line => runs_if (fun _ => ?_) fun other => absurd rfl other
  refine (runs_memberItem member _ (t :: rest)).bind ?_
  rintro ⟨item, name⟩ _ ⟨hitem, rfl⟩
  refine runs_testMark (runs_if (fun paren => ?_) fun _ => runs_pure ⟨?_, rfl⟩)
  · exact absurd (of_decide_eq_true paren) follows.ne_paren
  · simp only at hitem
    simp [node, Node.ofAccess, Node.plain, hn, hitem]

theorem readable_method {object : Term v} (h : Readable layout object) (member : Member)
    {args : List (Term v)} (hargs : ∀ e ∈ args, Readable layout e) :
    Readable layout (.method object member args) := by
  have printed : (method object member args).print layout =
      layout.operand object (object.print layout) ++ mark "." :: member.print ::
        enclosed (separated (printArguments layout (args.map (none, ·)))) := by
    simp [print, printArguments_eq, prints_eq, labelled, Function.comp_def]
  refine readable_of_suffix standard h (by decide) printed fun depth n t rest short hn _ => ?_
  rw [if_neg (by decide)]
  refine runs_next (by simp) fun line => runs_if (fun _ => ?_) fun other => absurd rfl other
  refine (runs_memberItem member _ _).bind ?_
  rintro ⟨item, name⟩ _ ⟨hitem, rfl⟩
  refine runs_testMark (runs_if (fun _ => ?_) fun other => absurd (by simp) other)
  simp only [length_cons, length_enclosed] at short
  refine (runs_arguments standard (by simpa using hargs) (by omega) (t :: rest)).bind ?_
  rintro n' _ ⟨hn', rfl⟩
  rw [argumentNodes_map] at hn'
  have plain : n'.children.any (·.kind == .namedArgument) = false := by
    have below := congrArg Node.children hn'
    rw [Node.children_unlined, nodes_eq] at below
    change n'.children.map Node.unlined = args.map node at below
    rw [any_eq_false]
    intro c hc
    have found : c.unlined ∈ args.map node := below ▸ mem_map_of_mem hc
    obtain ⟨e, -, same⟩ := mem_map.1 found
    have other := kind_node_ne e
    rw [same, Node.kind_unlined] at other
    simpa using other
  refine runs_if (fun named => absurd named (by simp [plain])) fun _ => runs_pure ⟨?_, rfl⟩
  simp only at hitem
  simp [node, Node.ofAccess, hn, hitem, hn']

theorem readable_subscript {object key : Term v} (h : Readable layout object)
    (hkey : Readable layout key) : Readable layout (.subscript object key) := by
  have printed : (Term.subscript object key).print layout =
      layout.operand object (object.print layout) ++
        mark "[" :: (key.print layout ++ [mark "]"]) := by
    rw [Term.print]
  refine readable_of_suffix standard h (by decide) printed fun depth n t rest short hn _ => ?_
  rw [if_neg (by decide), append_assoc]
  refine runs_next (by simp) fun line => runs_if (fun other => ?_) fun _ => ?_
  · exact absurd other (by simp [Content.onLine])
  · refine (hkey.whole depth (by simp at short; omega) (mark "]") (t :: rest)
      (closes_mark (by decide))).bind ?_
    rintro item _ ⟨hitem, rfl⟩
    refine runs_expectMark fun _ => runs_pure ⟨?_, rfl⟩
    simp [node, Node.ofAccess, Node.plain, hn, hitem]

theorem runs_optionalArguments {depth : Nat} {args : List (Option Variable × Term v)}
    (h : ∀ a ∈ args, Readable layout a.2)
    (short : (layout.optional (printArguments layout args)).length ≤ depth) (line : Int)
    {t : Content} (follows : Follows t) (rest : List Content) :
    Runs (optionalArguments (nested v depth) line)
      (layout.optional (printArguments layout args) ++ t :: rest)
      fun n left => n.unlined = .plain .arguments 0 (argumentNodes args) ∧
        left = t :: rest := by
  unfold Layout.optional at short ⊢
  split
  · next bare =>
    have none : args = [] := by
      have := (Bool.and_eq_true_iff.1 bare).1
      rwa [printArguments_eq, List.isEmpty_iff, map_eq_nil_iff] at this
    refine runs_testMark (runs_if (fun paren => ?_) fun _ => runs_pure ⟨?_, rfl⟩)
    · exact absurd (of_decide_eq_true paren) follows.ne_paren
    · simp [none, Node.plain, argumentNodes]
  · next called =>
    rw [if_neg called] at short
    refine runs_testMark (runs_if (fun _ => ?_) fun other => absurd (by simp) other)
    exact runs_arguments standard h (by simp only [length_enclosed] at short; omega) (t :: rest)

theorem readable_filter (f : { name : String // name ∈ v.filters }) {operand : Term v}
    (h : Readable layout operand) {args : List (Option Variable × Term v)}
    (hargs : ∀ a ∈ args, Readable layout a.2) : Readable layout (.filter f operand args) := by
  have printed : (Term.filter f operand args).print layout =
      layout.operand operand (operand.print layout) ++ mark "|" :: (.name, f.1) ::
        layout.optional (Term.printArguments layout args) := by
    rw [Term.print]
  refine readable_of_suffix standard h (by decide) printed fun depth n t rest short hn follows => ?_
  rw [if_pos rfl]
  refine runs_next (by simp) fun _ => runs_expectIn rfl (by simp) fun line => ?_
  refine runs_if (fun missing => ?_) fun _ => ?_
  · simp [Content.onLine, f.2] at missing
  · refine (runs_optionalArguments standard hargs (by simp at short; omega) _ follows rest).bind ?_
    rintro n' _ ⟨hn', rfl⟩
    refine runs_pure ⟨?_, rfl⟩
    simp [node, Node.ofCall, Content.onLine, hn, hn']

/-! ## Operators -/

theorem readable_unary (op : Unary) {operand : Term v} (h : Readable layout operand) :
    Readable layout (.unary op operand) := by
  have printed : (unary op operand).print layout =
      (.operator, op.1.1) :: layout.operand operand (operand.print layout) := by
    rw [print]
  refine ⟨⟨_, _, printed, .inl (by simp)⟩, nofun, fun depth short => ?_⟩
  rw [printed] at short ⊢
  cases depth with
  | zero => cases short
  | succ depth =>
    refine readsTo_of_operand standard (fun t rest closes => ?_) 0
    refine runs_current fun line => ?_
    dsimp only
    have found : (if (Content.onLine (.operator, op.1.1) line).kind == .operator then
        v.unary? (Content.onLine (.operator, op.1.1) line).value else none) = some op.1.2 :=
      standard.unary op.1 op.2
    rw [found]
    refine runs_next (by simp) fun _ => ?_
    refine (h.readsTo standard (Nat.le_of_succ_le_succ short) _ t rest closes).bind ?_
    rintro n _ ⟨hn, rfl⟩
    exact runs_remaining (runs_suffixes_of_stops closes.stops ⟨by simp [Node.plain, hn], rfl⟩ _)

theorem readsTo_of_operator {op : String × BinaryOperator} (listed : op ∈ Language.binaryOperators)
    {depth : Nat} {first ts : List Content} {l n : Node} (left : LeadsTo v depth first l)
    (right : ∀ m line t rest, m.unlined = l → Closes t →
      Runs (rightSide v (nested v depth) op.2 m line) (ts ++ t :: rest)
        fun m' left => m'.unlined = n ∧ left = t :: rest) :
    ReadsTo (nested v (depth + 1) 0) (first ++ (.operator, op.1) :: ts) n := by
  intro t rest closes
  rw [append_assoc]
  refine runs_expressionStep (R := fun m left => m.unlined = n ∧ left = t :: rest)
    (left.runs (follows_operator op.1) (stops_operator op.1) (ts ++ t :: rest)) ?_ ?_
  · rintro m _ ⟨hm, rfl⟩
    refine runs_current fun line => ?_
    dsimp only
    have found : (if (Content.onLine (.operator, op.1) line).kind == .operator then
        v.binary? (Content.onLine (.operator, op.1) line).value else none) = some op.2 :=
      standard.binary op listed
    rw [found]
    have tight : ¬op.2.precedence < 0 :=
      (by decide : ∀ op ∈ Language.binaryOperators, ¬op.2.precedence < 0) op listed
    refine runs_if (fun loose => absurd loose tight) fun _ => runs_next (by simp) fun _ => ?_
    refine (right m _ t rest hm closes).bind ?_
    rintro m' _ ⟨hm', rfl⟩
    rw [length_append, length_cons]
    exact runs_operators_of_none (closes.binary?_eq_none standard) ⟨hm', rfl⟩ (ts.length + rest.length)
  · rintro m _ ⟨hm, rfl⟩
    refine ⟨t, rest, rfl, closes.equals, fun _ => ?_, fun _ => ⟨hm, rfl⟩⟩
    exact runs_conditionals_of_ne (closes.ne_mark (by decide)) ⟨hm, rfl⟩ _

theorem readable_binary (kind : Node.Kind) (op : Binary (.operand kind)) {left right : Term v}
    (hleft : Readable layout left) (hright : Readable layout right) :
    Readable layout (.binary kind op left right) := by
  have printed : (binary kind op left right).print layout =
      layout.operand left (left.print layout) ++
        (.operator, op.1.1) :: layout.operand right (right.print layout) := by
    rw [print]
  obtain ⟨t, ts, start, opens⟩ := hleft.operand_opens
  refine ⟨⟨t, _, by rw [printed, start, cons_append], opens⟩, nofun, fun depth short => ?_⟩
  rw [printed] at short ⊢
  rw [length_append, length_cons] at short
  obtain ⟨depth, rfl⟩ : ∃ k, depth = k + 1 := ⟨depth - 1, by omega⟩
  refine readsTo_of_operator standard op.2.1 (hleft.operand (by omega))
    fun m line t rest hm closes => ?_
  unfold rightSide
  rw [op.2.2]
  refine (hright.readsTo standard (by omega) _ t rest closes).bind ?_
  rintro m' _ ⟨hm', rfl⟩
  exact runs_pure ⟨by simp [Node.plain, hm, hm'], rfl⟩

theorem runs_testCall {depth : Nat} (test : v.Test) {args : List (Option Variable × Term v)}
    (h : ∀ a ∈ args, Readable layout a.2)
    (short : (layout.optional (printArguments layout args)).length ≤ depth) (negated : Bool)
    (m : Node) (line : Int) {t : Content} (follows : Follows t) (rest : List Content) :
    Runs (testCall v (nested v depth) m negated line)
      (test.print ++ (layout.optional (printArguments layout args) ++ t :: rest))
      fun n left => n.unlined = .ofTest negated test.name 0 m.unlined
        (.plain .arguments 0 (argumentNodes args)) ∧ left = t :: rest := by
  -- once its name is read, a test of one word and one of two words end alike
  have finish (name : String) (hname : name = test.name) (line' : Int) : Runs (do
      let args ← optionalArguments (nested v depth) line'
      let node := Node.ofCall .test name line [m, args]
      return if negated then .plain .negation line [node] else node)
      (layout.optional (printArguments layout args) ++ t :: rest)
      fun n left => n.unlined = .ofTest negated test.name 0 m.unlined
        (.plain .arguments 0 (argumentNodes args)) ∧ left = t :: rest := by
    refine (runs_optionalArguments standard h short line' follows rest).bind ?_
    rintro n _ ⟨hn, rfl⟩
    refine runs_pure ⟨?_, rfl⟩
    cases negated <;> simp [Node.ofTest, Node.ofCall, Node.plain, hn, hname]
  obtain ⟨first, second, registered⟩ := test
  refine runs_expectIn rfl (by simp) fun _ => ?_
  cases second with
  | none =>
    obtain ⟨t', ts', behind, other⟩ : ∃ t' ts', layout.optional (printArguments layout args) ++
        t :: rest = t' :: ts' ∧ t'.1 ≠ .name := by
      unfold Layout.optional
      split
      · refine ⟨t, rest, rfl, fun same => ?_⟩
        simpa [same] using follows.kind
      · exact ⟨mark "(", _, rfl, by simp⟩
    change Runs _ (layout.optional (printArguments layout args) ++ t :: rest) _
    rw [behind] at finish ⊢
    refine runs_current fun _ => runs_if (fun two => ?_) fun one => ?_
    · exact absurd (eq_of_beq (Bool.and_eq_true_iff.1 two).1) other
    · refine runs_if (fun missing => ?_) fun _ => finish _ (if_neg one) _
      rw [if_neg one] at missing
      exact absurd registered (by simpa [Content.onLine] using missing)
  | some word =>
    have found : v.tests.contains (first ++ " " ++ word) = true :=
      contains_iff_mem.2 registered
    refine runs_current fun _ => runs_if (fun two => ?_) fun one => absurd found one
    refine runs_next (by simp) fun _ => ?_
    refine runs_if (fun missing => ?_) fun _ => finish _ (if_pos two) _
    rw [if_pos two] at missing
    exact absurd registered (by simpa [Content.onLine] using missing)

theorem readable_test (negated : Bool) (op : Binary (.test negated)) {subject : Term v}
    (hsubject : Readable layout subject) (test : v.Test)
    {args : List (Option Variable × Term v)} (hargs : ∀ a ∈ args, Readable layout a.2) :
    Readable layout (.test negated op subject test args) := by
  have printed : (Term.test negated op subject test args).print layout =
      layout.operand subject (subject.print layout) ++
        (.operator, op.1.1) ::
          (test.print ++ layout.optional (Term.printArguments layout args)) := by
    rw [Term.print]
  obtain ⟨t, ts, start, opens⟩ := hsubject.operand_opens
  refine ⟨⟨t, _, by rw [printed, start, cons_append], opens⟩, nofun, fun depth short => ?_⟩
  rw [printed] at short ⊢
  simp only [length_append, length_cons] at short
  obtain ⟨depth, rfl⟩ : ∃ k, depth = k + 1 := ⟨depth - 1, by omega⟩
  refine readsTo_of_operator standard op.2.1 (hsubject.operand (by omega))
    fun m line t rest hm closes => ?_
  unfold rightSide
  rw [op.2.2]
  have fits : (layout.optional (printArguments layout args)).length ≤ depth := by omega
  rw [append_assoc]
  refine (runs_testCall standard test hargs fits negated m line closes.follows rest).mono ?_
  rintro n left ⟨hn, hleft⟩
  exact ⟨by rw [hn, hm, node], hleft⟩

theorem readable_conditional {condition value otherwise : Term v}
    (hcondition : Readable layout condition) (hvalue : Readable layout value)
    (hotherwise : Readable layout otherwise) :
    Readable layout (.conditional condition value otherwise) := by
  have printed : (conditional condition value otherwise).print layout =
      layout.operand condition (condition.print layout) ++
        mark "?" :: (layout.operand value (value.print layout) ++
          mark ":" :: layout.operand otherwise (otherwise.print layout)) := by
    rw [print]
  obtain ⟨t, ts, start, opens⟩ := hcondition.operand_opens
  refine ⟨⟨t, _, by rw [printed, start, cons_append], opens⟩, nofun,
    fun depth short t rest closes => ?_⟩
  rw [printed] at short ⊢
  simp only [length_append, length_cons] at short
  obtain ⟨depth, rfl⟩ : ∃ k, depth = k + 1 := ⟨depth - 1, by omega⟩
  rw [append_assoc, cons_append, append_assoc, cons_append]
  refine runs_expressionStep (R := fun n left => n.unlined = condition.node ∧
      left = mark "?" :: (layout.operand value (value.print layout) ++
        mark ":" :: (layout.operand otherwise (otherwise.print layout) ++ t :: rest)))
    ((hcondition.operand (by omega)).runs (follows_mark (by decide)) (stops_mark (by decide)) _)
    ?_ ?_
  · rintro n _ ⟨hn, rfl⟩
    exact runs_operators_of_none (by simp) ⟨hn, rfl⟩ _
  · rintro n _ ⟨hn, rfl⟩
    refine ⟨_, _, rfl, nofun, fun _ => ?_, fun other => absurd rfl other⟩
    have fits : (layout.operand value (value.print layout)).length ≤ depth := by omega
    have second := hvalue.readsTo standard fits 0 (mark ":")
      (layout.operand otherwise (otherwise.print layout) ++ t :: rest) (closes_mark (by decide))
    obtain ⟨t', ts', start', opens'⟩ := hvalue.operand_opens
    rw [start'] at second ⊢
    refine runs_nextIf (by simp [test_mark]) (by simp) fun line => ?_
    refine runs_skipMark_of_ne (opens'.ne_mark (by decide)) ?_
    refine runs_if (fun other => absurd other (by decide)) fun _ => second.bind ?_
    rintro n' _ ⟨hn', rfl⟩
    refine runs_skipMark (runs_if (fun _ => ?_) fun other => absurd rfl other)
    refine (hotherwise.readsTo standard (by omega) 0 t rest closes).bind ?_
    rintro n'' _ ⟨hn'', rfl⟩
    refine runs_conditionals_of_ne (closes.ne_mark (by decide)) ⟨?_, rfl⟩ _
    simp [Node.plain, hn, hn', hn'']

end Terms

/-! ## All terms -/

section All

variable (layout : Layout v)

mutual

theorem readable (standard : v.Standard) : (e : Term v) → Readable layout e
  | .name n => readable_name standard n
  | .bool b => readable_bool standard b
  | .null => readable_null standard
  | .int n => readable_int standard n
  | .string s => readable_string standard s
  | .array items => readable_array standard (readable_items standard items)
  | .hash entries => readable_hash standard (readable_entries standard entries)
  | .item object member => readable_item standard (readable standard object) member
  | .method object member args =>
    readable_method standard (readable standard object) member (readable_items standard args)
  | .subscript object key =>
    readable_subscript standard (readable standard object) (readable standard key)
  | .filter f operand args =>
    readable_filter standard f (readable standard operand) (readable_arguments standard args)
  | .call f args => readable_call standard f (readable_arguments standard args)
  | .block argument => readable_block standard (readable standard argument)
  | .test negated op subject test args =>
    readable_test standard negated op (readable standard subject) test
      (readable_arguments standard args)
  | .conditional condition value otherwise =>
    readable_conditional standard (readable standard condition) (readable standard value)
      (readable standard otherwise)
  | .unary op operand => readable_unary standard op (readable standard operand)
  | .binary kind op left right =>
    readable_binary standard kind op (readable standard left) (readable standard right)

theorem readable_items (standard : v.Standard) :
    (items : List (Term v)) → ∀ e ∈ items, Readable layout e
  | [] => nofun
  | e :: items => forall_mem_cons.2 ⟨readable standard e, readable_items standard items⟩

theorem readable_entries (standard : v.Standard) : (entries : List (Term v × Term v)) →
    ∀ entry ∈ entries, Readable layout entry.1 ∧ Readable layout entry.2
  | [] => nofun
  | (key, value) :: entries => forall_mem_cons.2
    ⟨⟨readable standard key, readable standard value⟩, readable_entries standard entries⟩

theorem readable_arguments (standard : v.Standard) :
    (args : List (Option Variable × Term v)) → ∀ a ∈ args, Readable layout a.2
  | [] => nofun
  | (_, value) :: args =>
    forall_mem_cons.2 ⟨readable standard value, readable_arguments standard args⟩

end

end All

/-! ## The whole expression -/

/-- The language itself has the words and operators that terms are written with. -/
theorem standard_core : Registry.coreVocabulary.Standard where
  unary op h := by rw [Registry.unary?_core, lookup_of_mem (by decide) h]
  binary op h := by rw [Registry.binary?_core, lookup_of_mem (by decide) h]
  equals := by rw [Registry.binary?_core]; rfl

/-- **Reading inverts printing.**  With the tokens of a term ahead, whatever their lines and the
layout, and the end of a print behind them, an expression is read: its tree is that of the term,
apart from lines, and the end of the print is the next token. Nothing but the position in the
tokens has changed. -/
theorem expression_print (standard : v.Standard) (layout : Layout v) (e : Term v) {s : ParseState}
    {tokens rest : List Token} {last : Token} (printed : tokens.map Token.content = e.print layout)
    (ended : last.kind = .printEnd) (ahead : s.stream.ahead = tokens ++ last :: rest) :
    ∃ n s', expression v 0 s = .ok (n, s') ∧ n.unlined = e.node ∧
      s'.stream.ahead = last :: rest ∧ Walk s s' := by
  have contents : s.ahead = e.print layout ++ last.content :: rest.map Token.content := by
    rw [ParseState.ahead, ahead, map_append, printed, map_cons]
  have short : (e.print layout).length ≤ s.stream.remaining + 1 := by
    rw [TokenStream.remaining_eq, ahead, ← printed, length_map, length_append]
    omega
  obtain ⟨n, s', run, hn, left⟩ := (readable layout standard e).whole _ short last.content
    (rest.map Token.content) (.inl ended) s contents
  have ran : expression v 0 s = .ok (n, s') := run
  have walked : Walked _ false _ s (expression v 0 s) :=
    Scene.walks_expression ⟨v, _, _⟩ 0 s ⟨rfl, rfl⟩ (Nat.le_refl _) trivial
  rw [ran] at walked
  cases walked with
  | ok _ walk =>
    refine ⟨n, s', ran, hn, ?_, walk⟩
    obtain ⟨passed, whole, -⟩ := walk.ahead
    refine (append_inj_right' (whole.symm.trans ahead) ?_)
    simpa [ParseState.ahead] using congrArg List.length left

def sumTerm : Term Registry.coreVocabulary :=
  .test true ⟨("is not", ⟨100, .left, .test true⟩), by simp [Language.binaryOperators], rfl⟩
    (.binary .add ⟨("+", Language.leftward 30 .add), by simp [Language.binaryOperators], rfl⟩
      (.filter ⟨"default", by rw [Registry.filters_core.mem_iff]; decide⟩
        (.name (.small "a" (by decide) (by decide)))
        [(some (.small "b" (by decide) (by decide)), .int 1)])
      (.call ⟨.small "max" (by decide) (by decide), by rw [Registry.functions_core.mem_iff]; decide⟩
        [(none, .array [.unary ⟨("-", ⟨500, .neg⟩), by simp [Language.unaryOperators]⟩
          (.name (.small "c" (by decide) (by decide)))])]))
    ⟨"divisible", some "by", by rw [Registry.tests_core.mem_iff]; decide⟩ [(none, .int 2)]

/-- The tokens of `(a|default(b = 1) + max([-c])) is not divisible by(2)`. -/
def sumTokens : List Token :=
  [⟨.punctuation, "(", 1⟩, ⟨.name, "a", 1⟩, ⟨.punctuation, "|", 1⟩, ⟨.name, "default", 1⟩,
    ⟨.punctuation, "(", 1⟩, ⟨.name, "b", 1⟩, ⟨.operator, "=", 1⟩, ⟨.number, "1", 1⟩,
    ⟨.punctuation, ")", 1⟩, ⟨.operator, "+", 2⟩, ⟨.name, "max", 2⟩, ⟨.punctuation, "(", 2⟩,
    ⟨.punctuation, "[", 2⟩, ⟨.operator, "-", 2⟩, ⟨.name, "c", 2⟩, ⟨.punctuation, "]", 2⟩,
    ⟨.punctuation, ")", 2⟩, ⟨.punctuation, ")", 2⟩, ⟨.operator, "is not", 3⟩,
    ⟨.name, "divisible", 3⟩, ⟨.name, "by", 3⟩, ⟨.punctuation, "(", 3⟩, ⟨.number, "2", 3⟩,
    ⟨.punctuation, ")", 3⟩]

def sumState : ParseState where
  stream := .ofTokens (sumTokens ++
    [(⟨.printEnd, "", 3⟩ : Token), ⟨.endOfTemplate, "", 3⟩]).toArray "page"
  blocks := []
  openBlocks := []
  parent := none

theorem expression_print_sum :
    Registry.coreVocabulary.Standard ∧
    sumTokens.map Token.content = sumTerm.print ⟨fun _ => false, false⟩ ∧
    ∃ n s', expression Registry.coreVocabulary 0 sumState = .ok (n, s') ∧
      n.unlined = sumTerm.node ∧ s'.stream.current = ⟨.printEnd, "", 3⟩ := by
  have printed : sumTokens.map Token.content = sumTerm.print ⟨fun _ => false, false⟩ := by
    decide
  have before : sumState.stream.ahead =
      sumTokens ++ [⟨.printEnd, "", 3⟩, ⟨.endOfTemplate, "", 3⟩] := by decide
  obtain ⟨n, s', ran, same, ahead, -⟩ :=
    expression_print standard_core _ sumTerm printed rfl before
  refine ⟨standard_core, printed, n, s', ran, same, ?_⟩
  rw [TokenStream.ahead_eq_cons] at ahead
  exact (List.cons.inj ahead).1

end Stencil.Parse
