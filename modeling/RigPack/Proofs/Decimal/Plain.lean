import Mathlib
import RigPack.Decimal.Rounding

/-! The characters of the numbers that programs are written with. -/

namespace RigPack

/-- Whether a text is made of characters that numbers are written with. -/
def isNumeral (s : String) : Bool :=
  s.toList.all fun c => c.isDigit || c ∈ ['-','.','N','a','n','i','f']

lemma isNumeral_append {s t : String} : isNumeral (s ++ t) = (isNumeral s && isNumeral t) := by
  rw [isNumeral,String.toList_append,List.all_append]
  rfl

lemma isNumeral_ofList {l : List Char} (h : ∀ c ∈ l, c.isDigit) : isNumeral (String.ofList l) := by
  rw [isNumeral,String.toList_ofList]
  exact List.all_eq_true.mpr fun c hc => by simp [h c hc]

namespace Decimal

lemma isNumeral_zeros (n : Nat) : isNumeral (zeros n) :=
  isNumeral_ofList fun _ hc => (List.eq_of_mem_replicate hc) ▸ rfl

/-- Digits with a point among them, and zeros where digits are missing. -/
lemma isNumeral_positionalText (d : Decimal) : isNumeral (positionalText false d) := by
  have hdigits : ∀ c ∈ (toString d.digits).toList, c.isDigit := by
    intro c hc
    rw [Nat.toString_eq_repr,Nat.toList_repr] at hc
    exact Nat.isDigit_of_mem_toDigits (by decide) (by decide) hc
  have hwhole : isNumeral (toString d.digits) := by
    have := isNumeral_ofList hdigits
    rwa [String.ofList_toList] at this
  simp only [positionalText]
  split
  · rw [isNumeral_append,isNumeral_append,hwhole,isNumeral_zeros]
    rfl
  · split
    · rw [isNumeral_append,isNumeral_append,
        isNumeral_ofList fun c hc => hdigits c (List.mem_of_mem_take hc),
        isNumeral_ofList fun c hc => hdigits c (List.mem_of_mem_drop hc)]
      rfl
    · rw [isNumeral_append,isNumeral_append,isNumeral_zeros,hwhole]
      rfl

end Decimal

lemma isNumeral_plainText (x : Float) : isNumeral (plainText x) := by
  unfold plainText Decimal.Layout.text
  split
  · rfl
  · split <;> rfl
  · rw [isNumeral_append]
    refine Bool.and_eq_true_iff.mpr ⟨?_,Decimal.isNumeral_positionalText _⟩
    split <;> rfl

/-- Directives are printed with characters of numbers, of infinities and of what is no number. -/
lemma isNumeral_directiveNumber (x : Float) : isNumeral (directiveNumber x) := by
  simp only [directiveNumber]
  split
  · rfl
  · exact isNumeral_plainText _

end RigPack
