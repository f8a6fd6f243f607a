import Stencil.Proofs.Lexicon
import Stencil.Proofs.Reading
import Stencil.Proofs.Writing

/-!
# From a source to the text of its program

A source is cut into tokens, the tokens are read as a tree, and the program of the tree is written.
Each of the three either does its work or complains about a line of the source, and nothing else can
happen (`Environment.compileSource_located`).
-/

namespace Stencil

open Scanner (lineCount TokensWithin)

/-! ## The grammar of the language -/

namespace Shelf

variable {α : Type} {P : α → Prop}

theorem All.entries {s : Shelf α} (h : s.All P) {name : String} {a : α}
    (ha : s.entries.lookup name = some a) : P a := by
  obtain ⟨entry, hentry, same⟩ := List.mem_map.1 (mem_of_lookup ha)
  cases same
  exact h entry hentry

theorem all_nil : Shelf.All P [] := List.forall_mem_nil _

end Shelf

/-- The language itself builds well-made trees. -/
theorem Registry.grammar_core_sound : (ofExtensions [.core]).1.grammar.Sound where
  operators := by
    have unary : Shelf.All (fun op : UnaryOperator => op.kind.isUnary = true)
        (ofExtensions [.core]).1.unary :=
      Shelf.all_nil.claimSorted _ _ (by decide)
    have binary : Shelf.All (fun op : BinaryOperator => Parse.isBinarySide op.right = true)
        (ofExtensions [.core]).1.binary :=
      Shelf.all_nil.claimSorted _ _ (by decide)
    exact ⟨fun _ _ found => unary.entries found, fun _ _ found => binary.entries found⟩
  tags := tags_core

namespace Environment

variable (env : Environment) (source name : String)

/-! ## The three steps -/

theorem tokenize_ends :
    Ends (OnLine (lineCount source)) True name (TokensWithin (lineCount source))
      (env.tokenize source name) := by
  have scanned := Scanner.tokenize_within
    (Scanner.Operators.ofNames env.registry.grammar.vocabulary.operatorNames) source
  unfold tokenize
  dsimp only
  generalize Scanner.tokenize _ source = answer at scanned ⊢
  cases scanned with
  | ok within => exact .ok within
  | error reason onLine => exact .error (fun _ => trivial) onLine

variable {env} (hg : env.registry.grammar.Sound)

include hg

theorem tree_sound :
    Ends (OnLine (lineCount source)) True name
      (fun module => module.Whole (lineCount source) name ∧ module.IsSorted)
      (env.tree source name) := by
  refine (env.tokenize_ends source name).bind fun tokens htokens => ?_
  refine (Parse.tree_ends hg (Nat.le_add_right 1 _) htokens).bind fun module hmodule => .ok ?_
  split
  · exact hmodule
  · exact ⟨Autoescape.whole_apply _ hmodule.1, Autoescape.isSorted_apply _ hmodule.2⟩

theorem tree_ends :
    Ends (OnLine (lineCount source)) True name (Node.Whole (lineCount source) name)
      (env.tree source name) :=
  (tree_sound source name hg).mono (fun _ => id) fun _ h => h.1

/-- **A tree that has been read has expressions and statements where they belong.** -/
theorem isSorted_tree {source name : String} {module : Node}
    (read : env.tree source name = .ok module) : module.IsSorted := by
  have sound := tree_sound source name hg
  rw [read] at sound
  cases sound with
  | ok h => exact h.2

omit hg

/-- **Turning a source into a program is total.**  With valid options there is an environment, and
for every source and every name one of three things happens.

* The source is read and its program is written.
* The source is read, but a `defined` test somewhere in its tree is asked of something that is
  neither a variable, an attribute, a constant, a string, an array nor a hash. Nothing else is ever
  complained about once a source has been read.
* The source cannot be read.

A complaint names the template and a line between the first and the last one of the source. A tree
that has been read is whole: no node in it lacks a child or an attribute that its kind asks for. -/
theorem compileSource_located (options : Options) (valid : options.complaints = [])
    (loader : String → Except Failure String) (host : Host) :
    ∃ env, make options [] loader host = .ok env ∧ ∀ source name,
      (∃ module text, env.tree source name = .ok module ∧ module.Whole (lineCount source) name ∧
        env.compileSource source name = .ok text) ∨
      (∃ module line, env.tree source name = .ok module ∧ module.Whole (lineCount source) name ∧
        env.compileSource source name = .error (.malformed .definedOperand name line) ∧
        module.MisusedAt line ∧ OnLine (lineCount source) line) ∨
      (∃ reason line, env.tree source name = .error (.malformed reason name line) ∧
        env.compileSource source name = .error (.malformed reason name line) ∧
        OnLine (lineCount source) line) := by
  refine ⟨ofCore options loader host, make_core options valid loader host, fun source name => ?_⟩
  unfold compileSource
  have read : Ends (OnLine (lineCount source)) True name (Node.Whole (lineCount source) name)
      ((ofCore options loader host).tree source name) :=
    tree_ends source name Registry.grammar_core_sound
  generalize (ofCore options loader host).tree source name = tree at read ⊢
  cases read with
  | @ok module whole =>
    rcases Listing.compile_cases whole fun _ => unitName name source with
      ⟨text, done⟩ | ⟨line, failed, h⟩
    · exact .inl ⟨module, text, rfl, whole, done⟩
    · exact .inr (.inl ⟨module, line, rfl, whole, failed, h⟩)
  | error _ onLine => exact .inr (.inr ⟨_, _, rfl, rfl, onLine⟩)

/-- A print that is not closed, on the second line of a page that is escaped. -/
theorem compileSource_located_unclosed :
    Options.complaints { autoescape := "html", templateDirs := ["pages"] } = [] ∧
    ∃ env, make { autoescape := "html", templateDirs := ["pages"] } []
        (fun name => .error (.notFound name)) .empty = .ok env ∧
      ((∃ text, env.compileSource "a\n\x7b\x7b b" "page" = .ok text) ∨
        ∃ reason line,
          env.compileSource "a\n\x7b\x7b b" "page" = .error (.malformed reason "page" line) ∧
            1 ≤ line ∧ line ≤ 2) := by
  have valid : Options.complaints { autoescape := "html", templateDirs := ["pages"] } = [] := by
    decide
  obtain ⟨env, made, outcome⟩ :=
    compileSource_located _ valid (fun name => .error (.notFound name)) .empty
  refine ⟨valid, env, made, ?_⟩
  rcases outcome "a\n\x7b\x7b b" "page" with ⟨_, text, _, _, done⟩ |
    ⟨_, line, _, _, failed, _, onLine⟩ | ⟨reason, line, _, failed, onLine⟩
  · exact .inl ⟨text, done⟩
  · exact .inr ⟨_, line, failed, onLine⟩
  · exact .inr ⟨reason, line, failed, onLine⟩

end Environment
end Stencil
