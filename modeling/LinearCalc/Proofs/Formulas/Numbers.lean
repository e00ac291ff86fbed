import LinearCalc.Number.Formatted
import LinearCalc.Proofs.Digits

set_option autoImplicit false

/-! # The characters of a number

A number is written with digits, signs, points and the `e` of an exponent, unless it is not finite
(`significantText_chars`).
-/

namespace LinearCalc

/-- A digit, a sign, a point, or the letter before an exponent. -/
def IsNumeric (c : Char) : Prop := c.isDigit = true ∨ c ∈ ['+', '-', '.', 'e']

instance (c : Char) : Decidable (IsNumeric c) := inferInstanceAs (Decidable (_ ∨ _))

namespace Decimal

theorem allDigits_trim {d : Decimal} (h : AllDigits d.digits) : AllDigits d.trim.digits := by
  intro c hc
  unfold trim at hc
  split at hc
  · exact h c (List.mem_of_mem_take hc)
  · exact h c (mem_of_mem_dropZeros hc)

theorem allDigits_round (p : Nat) (r : Ratio) : AllDigits (round p r).digits := by
  unfold round
  dsimp only
  split
  · exact allDigits_natDigits _
  · exact allDigits_natDigits _

end Decimal

namespace DecimalStyle

variable {style : DecimalStyle} {d : Decimal}

theorem zeroFraction_chars : ∀ c ∈ ['.', '0'], IsNumeric c := by simp [IsNumeric]

theorem exponent_chars (style : DecimalStyle) (e : Int) :
    ∀ c ∈ style.exponent e, IsNumeric c := by
  intro c hc
  rcases List.mem_cons.1 hc with rfl | hc
  · split <;> simp [IsNumeric]
  · rcases List.mem_append.1 hc with hc | hc
    · exact .inl (allDigits_zeros _ c hc)
    · exact .inl (allDigits_natDigits _ c hc)

theorem mantissa_chars (h : AllDigits d.digits) : ∀ c ∈ style.mantissa d, IsNumeric c := by
  intro c hc
  rw [mantissa, List.mem_append] at hc
  rcases hc with hc | hc
  · exact .inl (h c (List.mem_of_mem_take hc))
  · split at hc
    · split at hc
      · exact zeroFraction_chars c hc
      · cases hc
    · rename_i more _
      rcases List.mem_cons.1 hc with rfl | hc
      · decide
      · exact .inl (h c (List.mem_of_mem_drop hc))

theorem positional_chars (h : AllDigits d.digits) : ∀ c ∈ style.positional d, IsNumeric c := by
  intro c hc
  unfold positional at hc
  -- the point stands before all digits, with zeros after it, or behind some of them
  split at hc
  · rcases List.mem_cons.1 hc with rfl | hc
    · decide
    · rcases List.mem_cons.1 hc with rfl | hc
      · decide
      · rcases List.mem_append.1 hc with hc | hc
        · exact .inl (allDigits_zeros _ c hc)
        · exact .inl (h c hc)
  · rw [List.mem_append, List.mem_append] at hc
    rcases hc with (hc | hc) | hc
    · exact .inl (h c (List.mem_of_mem_take hc))
    · exact .inl (allDigits_zeros _ c hc)
    · split at hc
      · split at hc
        · exact zeroFraction_chars c hc
        · cases hc
      · rcases List.mem_cons.1 hc with rfl | hc
        · decide
        · exact .inl (h c (List.mem_of_mem_drop hc))

/-- **The characters of a decimal that is written out.** -/
theorem write_chars (h : AllDigits d.digits) (negative : Bool) :
    ∀ c ∈ (style.write negative d).toList, IsNumeric c := by
  have hdigits : ∀ c ∈ (if style.isPositional d.exponent then style.positional d
      else style.scientific d), IsNumeric c := by
    intro c hc
    split at hc
    · exact positional_chars h c hc
    · rcases List.mem_append.1 hc with hc | hc
      · exact mantissa_chars h c hc
      · rcases List.mem_cons.1 hc with rfl | hc
        · decide
        · exact exponent_chars style d.exponent c hc
  intro c hc
  rw [write, String.toList_ofList] at hc
  split at hc
  · rcases List.mem_cons.1 hc with rfl | hc
    · decide
    · exact hdigits c hc
  · exact hdigits c hc

end DecimalStyle

/-- **The characters of a number**, which may be a word if it is not finite. -/
theorem significantText_chars (p : Nat) (x : Float) :
    significantText p x ∈ ["nan", "inf", "-inf"] ∨
      ∀ c ∈ (significantText p x).toList, IsNumeric c := by
  unfold significantText
  dsimp only
  split
  · exact .inl (by simp [nanText])
  · rename_i negative _
    cases negative <;> exact .inl (by simp [infinityText])
  · exact .inr (DecimalStyle.write_chars (allDigits_zeros 1) _)
  · exact .inr (DecimalStyle.write_chars (Decimal.allDigits_trim (Decimal.allDigits_round _ _)) _)

end LinearCalc
