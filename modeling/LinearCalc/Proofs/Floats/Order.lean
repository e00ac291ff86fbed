import LinearCalc.Proofs.Floats.Exact

set_option autoImplicit false

/-! # Comparing values

Positive numbers are in the order of their rational numbers (`value_lt_iff`), and the absolute value
of a number is that of its rational number (`exactValue?_abs`).
-/

namespace LinearCalc

open Float.Model (UnpackedFloat)
open Float.Model.UnpackedFloat (Sign)

variable {x y : Float} {a b q : ℚ}

/-- What is finite has a value. -/
theorem exists_exactValue? (h : x.isFinite = true) : ∃ q, exactValue? x = some q := by
  have hunpacked : x.toModel.unpack.isFinite = true := h
  cases hx : x.toModel.unpack with
  | notANumber =>
      rw [hx] at hunpacked
      cases hunpacked
  | infinity s =>
      rw [hx] at hunpacked
      cases hunpacked
  | zero s => exact ⟨0, exactValue?_zero hx⟩
  | finite s m e hm => exact ⟨_, exactValue?_finite hx⟩

/-- A positive value is that of a significand. -/
theorem exists_significand_of_value (h : exactValue? x = some q) (hq : 0 < q) :
    ∃ n c, Significand x n c ∧ q = scaled c n := by
  rcases exactValue?_cases h with ⟨s, -, rfl⟩ | ⟨s, m, e, hm, hx, -, hvalue⟩
  · exact absurd hq (lt_irrefl 0)
  · cases s with
    | positive =>
        have hsignificand := significand_of_unpack hx
        exact ⟨_, _, hsignificand, Option.some.inj (h.symm.trans hsignificand.toRat?_eq)⟩
    | negative =>
        have hscaled : (0 : ℚ) < m * 2 ^ e := by positivity
        rw [hvalue, signedValue, Sign.apply, Int.cast_neg, Int.cast_natCast] at hq
        linarith

theorem Significand.not_isNaN {n : ℤ} {c : ℕ} (h : Significand x n c) : x.isNaN = false := by
  obtain ⟨m, hm, hu, -⟩ := h.unpacked
  show x.toModel.unpack.isNaN = false
  rw [hu]
  rfl

/-- **Positive numbers are compared by their values.** -/
theorem value_lt_iff (hx : exactValue? x = some a) (hy : exactValue? y = some b) (ha : 0 < a)
    (hb : 0 < b) : x < y ↔ a < b := by
  obtain ⟨n, c, hxs, rfl⟩ := exists_significand_of_value hx ha
  obtain ⟨k, d, hys, rfl⟩ := exists_significand_of_value hy hb
  have hlt : scaled c n < scaled d k ↔ ¬ (k < n ∨ k = n ∧ d ≤ c) :=
    not_le.symm.trans (not_congr (scaled_le_scaled_iff hys.leading hys.lt hxs.leading hxs.lt))
  rw [hxs.lt_iff hys, hlt]
  omega

theorem value_le_iff (hx : exactValue? x = some a) (hy : exactValue? y = some b) (ha : 0 < a)
    (hb : 0 < b) : x ≤ y ↔ a ≤ b := by
  obtain ⟨n, c, hxs, rfl⟩ := exists_significand_of_value hx ha
  obtain ⟨k, d, hys, rfl⟩ := exists_significand_of_value hy hb
  rw [hxs.le_iff hys, scaled_le_scaled_iff hxs.leading hxs.lt hys.leading hys.lt]

/-- **The value of an absolute value.** -/
theorem exactValue?_abs (h : exactValue? x = some q) : exactValue? x.abs = some |q| := by
  refine IsExactly.value_eq ⟨x.toModel.unpack.abs, rfl, ?_⟩
  rcases exactValue?_cases h with ⟨s, hx, rfl⟩ | ⟨s, m, e, hm, hx, hstored, rfl⟩
  · rw [hx, abs_zero]
    exact .zero
  · have habs : |signedValue s m e| = signedValue .positive m e := by
      have hscaled : (0 : ℚ) < m * 2 ^ e := by positivity
      cases s <;> simp only [signedValue, Sign.apply, Int.cast_neg, Int.cast_natCast, neg_mul,
        abs_neg, abs_of_pos hscaled]
    rw [hx, habs]
    exact .finite .positive m e hm hstored

/-- A positive number is finite or infinity. -/
theorem significand_or_infinity (h : 0 < x) :
    (∃ n c, Significand x n c) ∨ x.toModel.unpack = .infinity .positive := by
  by_cases hfinite : x.isFinite = true
  · exact .inl (exists_significand hfinite h)
  · have hunpacked : ¬ x.toModel.unpack.isFinite = true := hfinite
    rw [float_lt_iff, unpack_zero] at h
    -- of what is not finite, only the positive infinity is above zero
    cases hx : x.toModel.unpack with
    | notANumber =>
        rw [hx] at h
        cases h
    | infinity s =>
        cases s with
        | positive => exact .inr rfl
        | negative =>
            rw [hx] at h
            cases h
    | zero s =>
        rw [hx] at hunpacked
        exact absurd rfl hunpacked
    | finite s m e hm =>
        rw [hx] at hunpacked
        exact absurd rfl hunpacked

end LinearCalc
