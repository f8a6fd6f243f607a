import Stencil.Datum
import Stencil.Proofs.Numerals
import Stencil.Text.Escape

/-!
# Texts without markup

A text that holds none of the characters `<`, `>` and the two quotation marks cannot end the text or
the attribute of a document that it is put into. Escaped texts are of this kind, whatever they were
before (`clean_markup`, `clean_address`), and so are numbers (`clean_int`, `clean_shownFloat`).
-/

namespace Stencil

open List

/-- The characters that can begin or end something in a document. -/
def markupCharacters : List Char := ['<', '>', '"', '\'']

def CleanChars (cs : List Char) : Prop := ∀ c ∈ cs, c ∉ markupCharacters

def Clean (s : String) : Prop := CleanChars s.toList

instance (cs : List Char) : Decidable (CleanChars cs) :=
  List.decidableBAll (· ∉ markupCharacters) cs

instance (s : String) : Decidable (Clean s) := inferInstanceAs (Decidable (CleanChars s.toList))

/-! ## Putting texts together -/

theorem clean_ofList {cs : List Char} : Clean (String.ofList cs) ↔ CleanChars cs := by
  rw [Clean, String.toList_ofList]

theorem clean_append {s t : String} : Clean (s ++ t) ↔ Clean s ∧ Clean t := by
  rw [Clean, String.toList_append]
  exact forall_mem_append

theorem clean_empty : Clean "" := by decide

/-! ## Escaped texts -/

theorem cleanChars_markupChar (c : Char) : CleanChars (Text.markupChar c) := by
  unfold Text.markupChar
  split_ifs with hamp hquote hless hgreater hdouble
  · decide
  · decide
  · decide
  · decide
  · decide
  · intro d hd
    rw [mem_singleton.1 hd]
    simp only [beq_iff_eq] at hquote hless hgreater hdouble
    simp [markupCharacters, hquote, hless, hgreater, hdouble]

/-- **A text that is escaped for a document is clean.** -/
theorem clean_markup (s : String) : Clean (Text.markup s) := by
  rw [Text.markup, clean_ofList]
  intro c hc
  obtain ⟨d, -, hd⟩ := mem_flatMap.1 hc
  exact cleanChars_markupChar d c hd

theorem cleanChars_addressByte (b : UInt8) : CleanChars (Text.addressByte b) := by
  have all : ∀ n : Fin 256, CleanChars (Text.addressByte (UInt8.ofNat n)) := by decide +kernel
  have byte := all ⟨b.toNat, b.toNat_lt⟩
  rwa [UInt8.ofNat_toNat] at byte

/-- **A text that is escaped for an address is clean.** -/
theorem clean_address (s : String) : Clean (Text.address s) := by
  rw [Text.address, clean_ofList]
  intro c hc
  obtain ⟨b, -, hb⟩ := mem_flatMap.1 hc
  exact cleanChars_addressByte b c hb

/-! ## Numbers -/

theorem numeric_clean : Numeric (· ∉ markupCharacters) where
  digit c hc h := by
    simp only [markupCharacters, mem_cons, not_mem_nil, or_false] at h
    rcases h with rfl | rfl | rfl | rfl <;> cases hc
  point := by decide
  minus := by decide
  plus := by decide

theorem clean_int (i : Int) : Clean (toString i) := numeric_clean.int i

theorem clean_shownFloat (f : Float) : Clean (shownFloat f) := by
  unfold shownFloat
  split_ifs
  · decide
  · decide
  · decide
  · exact numeric_clean.signed _ (numeric_clean.chars (by decide) (numeric_clean.significant f 15))
  · exact numeric_clean.signed _ (numeric_clean.chars (by decide) (numeric_clean.shortest f))

end Stencil
