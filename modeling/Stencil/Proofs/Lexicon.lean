import Mathlib
import Stencil.Proofs.Registry

/-!
# The words of the language itself

The registry of the language without extensions is put together by the same machinery as any other.
Here it is read back: its tags are the core tags, its operators are those of the two tables, and
`Registry.scanned_core` is the list in which the scanner tries them.
-/

namespace Stencil

open List

namespace Shelf

variable {α : Type}

theorem entries_claimSorted (sort owner : String) (items : List (String × α))
    (different : (items.map (·.1)).Nodup) :
    (claimSorted sort owner [] items).1.entries.Perm items := by
  have sorted := mergeSort_perm items fun a b => a.1 ≤ b.1
  rw [claimSorted, (claimAll_new sort owner _ ((sorted.map _).nodup_iff.2 different)
    fun _ _ => rfl).1]
  exact sorted

theorem names_claimSorted (sort owner : String) (items : List (String × α))
    (different : (items.map (·.1)).Nodup) :
    ((claimSorted sort owner [] items).1.map (·.1)).Perm (items.map (·.1)) := by
  have sorted := (entries_claimSorted sort owner items different).map (·.1)
  rwa [entries, map_map] at sorted

end Shelf

/-- Sorting does not change what is found under a name, if no name is there twice. -/
theorem lookup_of_perm {α : Type} {xs ys : List (String × α)} (h : xs.Perm ys)
    (different : (ys.map (·.1)).Nodup) (name : String) : xs.lookup name = ys.lookup name := by
  induction h with
  | nil => rfl
  | cons entry _ ih => rw [lookup_cons, lookup_cons, ih (nodup_cons.1 different).2]
  | swap x y rest =>
    have differ : x.1 ≠ y.1 := by
      intro same
      simp [same] at different
    obtain ⟨first, a⟩ := x
    obtain ⟨second, b⟩ := y
    simp only [List.lookup]
    cases hfirst : name == first with
    | false => rfl
    | true =>
      have hsecond : (name == second) = false :=
        beq_false_of_ne fun same => differ ((eq_of_beq hfirst).symm.trans same)
      rw [hsecond]
  | trans _ hyz ih ih' =>
    exact (ih ((hyz.map _).nodup_iff.2 different)).trans (ih' different)

theorem lookup_of_mem {α : Type} {xs : List (String × α)} (different : (xs.map (·.1)).Nodup)
    {x : String × α} (h : x ∈ xs) : xs.lookup x.1 = some x.2 := by
  obtain ⟨before, after, rfl⟩ := append_of_mem h
  rw [lookup_of_perm perm_middle ((perm_middle.map _).nodup_iff.1 different),
    lookup_cons_self]

namespace Registry

def coreVocabulary : Vocabulary := (ofExtensions [.core]).1.grammar.vocabulary

theorem unary_core : coreVocabulary.unary.Perm Language.unaryOperators :=
  Shelf.entries_claimSorted "unary operator" "core" _ (by decide)

theorem binary_core : coreVocabulary.binary.Perm Language.binaryOperators :=
  Shelf.entries_claimSorted "binary operator" "core" _ (by decide)

theorem unary?_core (name : String) :
    coreVocabulary.unary? name = Language.unaryOperators.lookup name :=
  lookup_of_perm unary_core (by decide) name

theorem binary?_core (name : String) :
    coreVocabulary.binary? name = Language.binaryOperators.lookup name :=
  lookup_of_perm binary_core (by decide) name

theorem filters_core : coreVocabulary.filters.Perm (Language.filters.map (·.1)) :=
  Shelf.names_claimSorted "filter" "core" _ (by decide)

theorem functions_core : coreVocabulary.functions.Perm (Language.functions.map (·.1)) :=
  Shelf.names_claimSorted "function" "core" _ (by decide)

theorem tests_core : coreVocabulary.tests.Perm (Language.tests.map (·.1)) :=
  Shelf.names_claimSorted "test" "core" _ (by decide)

theorem tags_core : ∀ tag ∈ (ofExtensions [.core]).1.grammar.tags, tag ∈ Parse.coreTags := by
  have own : ∀ item ∈ Parse.coreTags.map fun t => (t.name, t), item.2 ∈ Parse.coreTags := by
    intro item hitem
    obtain ⟨tag, htag, rfl⟩ := mem_map.1 hitem
    exact htag
  have placed : Shelf.All (· ∈ Parse.coreTags) (ofExtensions [.core]).1.tags :=
    Shelf.All.claimAll "tag" "core" own (forall_mem_nil _)
  intro tag htag
  obtain ⟨entry, hentry, rfl⟩ := mem_map.1 htag
  exact placed entry hentry

/-- The names of the operators of the language, sorted. -/
theorem operatorNames_core : coreVocabulary.operatorNames =
    ["!=", "%", "*", "**", "+", "-", "..", "/", "//", "<", "<=", "==", ">", ">=", "and", "b-and",
     "b-or", "b-xor", "ends with", "in", "is", "is not", "not", "not in", "or", "starts with",
     "~"] := by
  have sorted : coreVocabulary.operatorNames.Pairwise fun a b => decide (a ≤ b) = true := by
    refine pairwise_mergeSort (fun a b c hab hbc => ?_) (fun a b => ?_) _
    · exact decide_eq_true (String.le_trans (of_decide_eq_true hab) (of_decide_eq_true hbc))
    · simpa using String.le_total a b
  refine List.Perm.eq_of_pairwise (fun a b _ _ hab hba => ?_) sorted (by decide) ?_
  · exact String.le_antisymm (of_decide_eq_true hab) (of_decide_eq_true hba)
  · refine (mergeSort_perm _ _).trans ?_
    have unary := unary_core.map (·.1)
    have same (name : String) : (coreVocabulary.unary.map (·.1)).contains name =
        (Language.unaryOperators.map (·.1)).contains name := by
      rw [Bool.eq_iff_iff, contains_iff_mem, contains_iff_mem, unary.mem_iff]
    simp only [same]
    refine (unary.append ((binary_core.map (·.1)).filter _)).trans ?_
    decide

end Registry

namespace Language

/-- The operators of the language itself, in the order in which they are tried. -/
def scanned : Scanner.Operators :=
  ["starts with", "ends with", "is not", "not in", "b-and", "b-xor", "b-or", "and", "not", "!=",
   "**", "..", "//", "<=", "==", ">=", "in", "is", "or", "%", "*", "+", "-", "/", "<", ">", "~",
   "="]

end Language

theorem Registry.scanned_core :
    Scanner.Operators.ofNames Registry.coreVocabulary.operatorNames = Language.scanned := by
  rw [operatorNames_core]
  cbv

end Stencil
