import LinearCalc.Proofs.Floats.Exact
import LinearCalc.Proofs.Labels.Decimals
import LinearCalc.Number.Formatted
import Mathlib.Algebra.Order.Group.Unbundled.Abs
import Mathlib.Algebra.Ring.Int.Parity

set_option autoImplicit false

/-! # Rounded decimals

A number that is written with so many places is a decimal: its digits are those of the nearest
integer to the number with the point moved behind them, and a tie goes to the even one
(`exists_fixedChars`). There is no needless zero before the point (`placed_no_leading`).
-/

namespace LinearCalc

open PlainDecimal

/-! ## Nearest integers -/

/-- The integer nearest to a number; of two equally near, the even one. -/
structure NearestEven (q : ℚ) (n : ℤ) : Prop where
  near : |q - n| ≤ 1 / 2
  even : |q - n| = 1 / 2 → Even n

/-- A remainder of one half is rounded to an even number. -/
theorem even_roundDiv {num den : ℕ} (hden : 0 < den)
    (h : 2 * num + den = 2 * (roundDiv num den * den)
      ∨ 2 * num = 2 * (roundDiv num den * den) + den) : Even (roundDiv num den) := by
  have hnum : num = num / den * den + num % den := (Nat.div_add_mod' num den).symm
  have hlt := Nat.mod_lt num hden
  have hsucc : (num / den + 1) * den = num / den * den + den := Nat.succ_mul _ _
  rw [Nat.even_iff]
  unfold roundDiv at h ⊢
  dsimp only at h ⊢
  split at h
  · omega
  · split at h
    · rw [hsucc] at h
      omega
    · rw [if_neg ‹_›, if_neg ‹_›]
      omega

/-- **Quotients are rounded to the nearest integer.** -/
theorem nearestEven_roundDiv {num den : ℕ} (hden : 0 < den) :
    NearestEven (num / den) (roundDiv num den) := by
  have hhigh := roundDiv_mul_le num den
  have hlow := le_roundDiv_mul num den hden
  have hden' : (0 : ℚ) < den := by exact_mod_cast hden
  have hhigh' : 2 * ((roundDiv num den : ℚ) * den) ≤ 2 * num + den := by exact_mod_cast hhigh
  have hlow' : 2 * (num : ℚ) ≤ 2 * (roundDiv num den * den) + den := by exact_mod_cast hlow
  have hdifference : (num : ℚ) / den - ((roundDiv num den : ℕ) : ℤ)
      = (num - roundDiv num den * den) / den := by
    rw [Int.cast_natCast, sub_div, mul_div_cancel_right₀ _ hden'.ne']
  constructor
  · rw [hdifference, abs_div, abs_of_pos hden', div_le_iff₀ hden', abs_le]
    constructor <;> linarith
  · rw [hdifference, abs_div, abs_of_pos hden', div_eq_iff hden'.ne']
    -- at a tie the quotient is just between two integers, above or below the one it is rounded to
    intro htie
    refine (Int.even_coe_nat _).2 (even_roundDiv hden ?_)
    rcases abs_choice ((num : ℚ) - roundDiv num den * den) with habs | habs
    · right
      have heq : 2 * (num : ℚ) = 2 * (roundDiv num den * den) + den := by linarith
      exact_mod_cast heq
    · left
      have heq : 2 * (num : ℚ) + den = 2 * (roundDiv num den * den) := by linarith
      exact_mod_cast heq

theorem NearestEven.neg {q : ℚ} {n : ℤ} (h : NearestEven q n) : NearestEven (-q) (-n) := by
  have habs : |-q - ((-n : ℤ) : ℚ)| = |q - n| := by
    rw [Int.cast_neg, neg_sub_neg, abs_sub_comm]
  exact ⟨habs ▸ h.near, fun htie => (h.even (habs ▸ htie)).neg⟩

theorem NearestEven.signed {m n : ℕ} {a : ℚ} (negative : Bool) (h : NearestEven (m * a) n) :
    NearestEven (Binary64.signed negative m * a) (Binary64.signed negative n) := by
  cases negative with
  | false => exact h
  | true =>
      have hsigned : ((Binary64.signed true m : ℤ) : ℚ) = -(m : ℚ) :=
        (Int.cast_neg _).trans (congrArg _ (Int.cast_natCast m))
      rw [hsigned, neg_mul]
      exact h.neg

namespace Ratio

theorem ofScaled_den_pos (m : ℕ) (q : ℤ) : 0 < (ofScaled m q).den := twoPow_pos _

theorem ofScaled_value (m : ℕ) (q : ℤ) :
    ((ofScaled m q).num : ℚ) / (ofScaled m q).den = m * 2 ^ q := by
  have hexponent : q = (q.toNat : ℤ) - ((-q).toNat : ℤ) := by omega
  show ((m * twoPow q.toNat : ℕ) : ℚ) / twoPow (-q).toNat = m * 2 ^ q
  rw [Nat.cast_mul, twoPow_cast, twoPow_cast, mul_div_assoc, ← zpow_sub₀ two_ne_zero,
    ← hexponent]

end Ratio

theorem tenPow_eq (n : ℕ) : tenPow n = 10 ^ n := rfl

theorem nearestEven_roundPlaces (places m : ℕ) (q : ℤ) :
    NearestEven (m * (2 ^ q * 10 ^ places)) ((Ratio.ofScaled m q).roundPlaces places) := by
  have hden := Ratio.ofScaled_den_pos m q
  have hvalue : (((Ratio.ofScaled m q).num * tenPow places : ℕ) : ℚ) / (Ratio.ofScaled m q).den
      = m * (2 ^ q * 10 ^ places) := by
    rw [Nat.cast_mul, mul_div_right_comm, Ratio.ofScaled_value, tenPow_eq, Nat.cast_pow, mul_assoc,
      Nat.cast_ofNat]
  rw [← hvalue]
  exact nearestEven_roundDiv hden

/-! ## Digits with a point among them -/

theorem length_padLeft (length : ℕ) (digits : List Char) :
    (DecimalStyle.padLeft length digits).length = max length digits.length := by
  rw [DecimalStyle.padLeft, List.length_append, List.length_replicate]
  omega

/-- The digits of a number, with zeros in front if it has no digit before the places. -/
def placedRow (places n : ℕ) : List Char := DecimalStyle.padLeft (places + 1) (natDigits n)

/-- How many of the digits stand before the point. -/
def wholeLength (places n : ℕ) : ℕ := (placedRow places n).length - places

/-- The decimal `n · 10^(-places)` with a sign. -/
def placed (negative : Bool) (places n : ℕ) : PlainDecimal where
  negative := negative
  whole := (placedRow places n).take (wholeLength places n)
  fraction := if places = 0 then none else some ((placedRow places n).drop (wholeLength places n))

section Placed

variable (negative : Bool) (places n : ℕ)

theorem allDigits_placedRow : AllDigits (placedRow places n) :=
  (allDigits_zeros _).append (allDigits_natDigits n)

theorem digitsValue_placedRow : digitsValue (placedRow places n) = n :=
  (digitsValue_zeros_append _ _).trans (digitsValue_natDigits n)

theorem length_placedRow :
    (placedRow places n).length = max (places + 1) (natDigits n).length :=
  length_padLeft _ _

theorem wholeLength_add : wholeLength places n + places = (placedRow places n).length := by
  have hlength := length_placedRow places n
  unfold wholeLength
  omega

theorem wholeLength_zero : wholeLength 0 n = (placedRow 0 n).length := wholeLength_add 0 n

theorem wholeLength_pos : 0 < wholeLength places n := by
  have hlength := length_placedRow places n
  unfold wholeLength
  omega

theorem placed_text : (placed negative places n).text
    = (if negative then ['-'] else []) ++ placedDigits places n := by
  have hdigits : placedDigits places n = if places = 0 then placedRow places n else
      (placedRow places n).take (wholeLength places n)
        ++ '.' :: (placedRow places n).drop (wholeLength places n) := rfl
  rw [hdigits, text]
  congr 1
  by_cases hplaces : places = 0
  · subst hplaces
    simp only [placed, wholeLength_zero, List.take_length, if_true, pointed, List.append_nil]
  · simp only [placed, if_neg hplaces, pointed]

theorem placed_places : (placed negative places n).places
    = (placedRow places n).drop (wholeLength places n) := by
  by_cases hplaces : places = 0
  · subst hplaces
    rw [wholeLength_zero, List.drop_length]
    rfl
  · exact places_of_some (if_neg hplaces)

theorem placed_value :
    (placed negative places n).value = Binary64.signed negative n / 10 ^ places := by
  have hrow : (placed negative places n).whole ++ (placed negative places n).places
      = placedRow places n := by
    rw [placed_places]
    exact List.take_append_drop _ _
  have hlength : (placed negative places n).places.length = places := by
    rw [placed_places, List.length_drop, ← wholeLength_add, Nat.add_sub_cancel_left]
  rw [value, hrow, hlength, digitsValue_placedRow]
  rfl

theorem placed_proper : (placed negative places n).Proper := by
  have hdigits := allDigits_placedRow places n
  refine ⟨?_, fun c hc => hdigits c (List.mem_of_mem_take hc), ?_⟩
  · have hlength := wholeLength_add places n
    have hpos := wholeLength_pos places n
    refine List.ne_nil_of_length_pos ?_
    show 0 < ((placedRow places n).take (wholeLength places n)).length
    rw [List.length_take]
    omega
  · rw [placed_places]
    exact fun c hc => hdigits c (List.mem_of_mem_drop hc)

/-- If the number is padded there is one zero before the point, and otherwise its first digit is not
zero. -/
theorem placed_no_leading (rest : List Char) (h : (placed negative places n).whole = '0' :: rest) :
    rest = [] := by
  have hrow : (placedRow places n).take (wholeLength places n) = '0' :: rest := h
  -- padded, the number keeps a single digit before the point; else it begins like the integer
  by_cases hpadded : (natDigits n).length ≤ places
  · have hlength := length_placedRow places n
    have hone : wholeLength places n = 1 := by
      unfold wholeLength
      omega
    have hrest := congrArg List.length hrow
    rw [hone, List.length_take, List.length_cons] at hrest
    exact List.eq_nil_of_length_eq_zero (by omega)
  · have hplain : placedRow places n = natDigits n := by
      rw [placedRow, DecimalStyle.padLeft, Nat.sub_eq_zero_of_le (by omega)]
      rfl
    rw [hplain] at hrow
    have hdigits : natDigits n = '0' :: (rest ++ (natDigits n).drop (wholeLength places n)) := by
      rw [← List.cons_append, ← hrow, List.take_append_drop]
    exact (List.append_eq_nil_iff.1 (natDigits_no_leading hdigits)).1

end Placed

/-! ## Fixed places -/

/-- **A number with so many places is rounded.** -/
theorem exists_fixedChars {x : Float} {q : ℚ} (h : exactValue? x = some q) (places : ℕ) :
    ∃ negative n, fixedChars places x = (placed negative places n).text ∧
      NearestEven (q * 10 ^ places) (Binary64.signed negative n) := by
  unfold exactValue? at h
  unfold fixedChars
  cases hx : Binary64.ofFloat x with
  | nan =>
      rw [hx] at h
      cases h
  | infinite negative =>
      rw [hx] at h
      cases h
  | finite negative m e =>
      rw [hx] at h
      have hq : q = Binary64.signed negative m * 2 ^ e := (Option.some.inj h).symm
      refine ⟨negative, (Ratio.ofScaled m e).roundPlaces places, ?_, ?_⟩
      · rw [placed_text]
        cases negative <;> rfl
      · rw [hq, mul_assoc]
        exact (nearestEven_roundPlaces places m e).signed negative

end LinearCalc
