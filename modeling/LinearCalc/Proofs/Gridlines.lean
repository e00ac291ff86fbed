import LinearCalc.Proofs.Floats.Rationals
import LinearCalc.View.Gridlines

set_option autoImplicit false

/-! # The search for a distance of grid lines

For a positive finite zoom the search ends if the largest power of two that can be stored is wide
enough, and then it finds a power of two at which the lines are neither too close nor too far apart
(`gridSpacing_in_range`). For a smaller zoom it does not end (`gridSpacing_tiny`): the distance
grows until it is infinite, and half of infinity is infinity.

Both loops move the exponent of a power of two. What they ask is written with the exponent `n` and
the bits `c` of the zoom: fifty and a hundred have the same bits, with the exponents five and six.
-/

namespace LinearCalc

variable {zoom s : Float} {n k : ℤ} {c : ℕ}

/-! ## What the loops ask -/

/-- The bits of fifty, and of a hundred. -/
def fiftyBits : ℕ := 25 * twoPow 48

theorem significand_minGridPixels : Significand minGridPixels 5 fiftyBits :=
  ⟨⟨fiftyBits, by decide, rfl, rfl⟩, by decide, by decide, by decide⟩

theorem significand_maxGridPixels : Significand maxGridPixels 6 fiftyBits :=
  ⟨⟨fiftyBits, by decide, rfl, rfl⟩, by decide, by decide, by decide⟩

/-- Lines at a distance of `2^k` are not too close. -/
def Wide (n : ℤ) (c : ℕ) (k : ℤ) : Prop := 5 < n + k ∨ 5 = n + k ∧ fiftyBits ≤ c

/-- Lines at a distance of `2^k` are not too far apart. -/
def Narrow (n : ℤ) (c : ℕ) (k : ℤ) : Prop := n + k < 6 ∨ n + k = 6 ∧ c ≤ fiftyBits

instance : Decidable (Wide n c k) := inferInstanceAs (Decidable (_ ∨ _))

instance : Decidable (Narrow n c k) := inferInstanceAs (Decidable (_ ∨ _))

/-- Where lines are too far apart, they are not too close at half the distance. -/
theorem wide_pred_of_not_narrow (h : ¬ Narrow n c k) : Wide n c (k - 1) := by
  unfold Narrow at h
  unfold Wide
  omega

theorem Wide.mono {l : ℤ} (h : Wide n c k) (hle : k ≤ l) : Wide n c l := by
  unfold Wide at *
  omega

theorem Wide.le (h : Wide n c k) : 5 ≤ n + k := by
  unfold Wide at h
  omega

section Questions

variable (hs : IsPower s k) (hzoom : Significand zoom n c) (hlow : -1022 ≤ n + k ∨ 0 ≤ k)
  (hhigh : n + k ≤ 1023)
include hs hzoom hlow hhigh

theorem minGridPixels_le_iff : minGridPixels ≤ s * zoom ↔ Wide n c k :=
  significand_minGridPixels.le_iff (hs.mul hzoom hlow hhigh)

theorem le_maxGridPixels_iff : s * zoom ≤ maxGridPixels ↔ Narrow n c k :=
  (hs.mul hzoom hlow hhigh).le_iff significand_maxGridPixels

theorem lt_minGridPixels_iff : s * zoom < minGridPixels ↔ ¬ Wide n c k := by
  rw [(hs.mul hzoom hlow hhigh).lt_iff significand_minGridPixels]
  unfold Wide
  omega

theorem maxGridPixels_lt_iff : maxGridPixels < s * zoom ↔ ¬ Narrow n c k := by
  rw [significand_maxGridPixels.lt_iff (hs.mul hzoom hlow hhigh)]
  unfold Narrow
  omega

end Questions

/-! ## Doubling -/

section Doubling

variable (hs : IsPower s k) (hzoom : Significand zoom n c) (hk : 0 ≤ k) (hhigh : n + k ≤ 1023)
include hs hzoom hk hhigh

theorem widen_of_wide (h : Wide n c k) : widen zoom s = some s := by
  rw [widen_eq, if_neg]
  rw [lt_minGridPixels_iff hs hzoom (.inr hk) hhigh, not_not]
  exact h

theorem widen_of_not_wide (h : ¬ Wide n c k) : widen zoom s = widen zoom (s * 2) := by
  rw [widen_eq, if_pos]
  rw [lt_minGridPixels_iff hs hzoom (.inr hk) hhigh]
  exact h

end Doubling

theorem Narrow.le_exponent (h : Narrow n c k) : n + k ≤ 1023 := by
  unfold Narrow at h
  omega

theorem exponent_succ_le (h : ¬ Wide n c k) : n + (k + 1) ≤ 1023 := by
  unfold Wide at h
  omega

/-- **Doubling ends** where one of the powers of two is wide enough. -/
theorem exists_widen (hs : IsPower s k) (hzoom : Significand zoom n c) (hk : 0 ≤ k)
    (hhigh : n + k ≤ 1023) (hwide : Wide n c 1023) :
    ∃ s' l, widen zoom s = some s' ∧ IsPower s' l ∧ Wide n c l ∧ n + l ≤ 1023 := by
  have hmost := hs.significand.exponent_le
  -- the exponent comes closer to the largest one
  induction hrest : (1023 - k).toNat generalizing s k with
  | zero =>
      have htop : k = 1023 := by omega
      rw [← htop] at hwide
      exact ⟨s, k, widen_of_wide hs hzoom hk hhigh hwide, hs, hwide, hhigh⟩
  | succ rest ih =>
      by_cases h : Wide n c k
      · exact ⟨s, k, widen_of_wide hs hzoom hk hhigh h, hs, h, hhigh⟩
      · rw [widen_of_not_wide hs hzoom hk hhigh h]
        have hdouble := hs.double (by omega)
        exact ih hdouble (by omega) (exponent_succ_le h) hdouble.significand.exponent_le (by omega)

/-- **Doubling ends with infinity** where none of them is. -/
theorem widen_infinite (hs : IsPower s k) (hzoom : Significand zoom n c) (hk : 0 ≤ k)
    (hhigh : n + k ≤ 1023) (hnever : ¬ Wide n c 1023) :
    ∃ s', widen zoom s = some s' ∧ s'.toModel.unpack = .infinity .positive := by
  have hmost := hs.significand.exponent_le
  have hclose : ¬ Wide n c k := fun h => hnever (h.mono hmost)
  induction hrest : (1023 - k).toNat generalizing s k with
  | zero =>
      -- twice the largest power of two is too large to be stored
      have hinfinite : (s * 2).toModel.unpack = .infinity .positive :=
        hs.mul_large significand_two (by omega)
      refine ⟨s * 2, ?_, hinfinite⟩
      rw [widen_of_not_wide hs hzoom hk hhigh hclose, widen_eq, if_neg]
      exact significand_minGridPixels.not_infinity_lt (infinity_mul hinfinite hzoom)
  | succ rest ih =>
      rw [widen_of_not_wide hs hzoom hk hhigh hclose]
      have hdouble := hs.double (by omega)
      have hmost' := hdouble.significand.exponent_le
      exact ih hdouble (by omega) (exponent_succ_le hclose) hmost'
        (fun h => hnever (h.mono hmost')) (by omega)

/-! ## Halving -/

section Halving

variable (hs : IsPower s k) (hzoom : Significand zoom n c) (hlow : 5 ≤ n + k)
  (hhigh : n + k ≤ 1023)
include hs hzoom hlow hhigh

theorem narrow_of_narrow (h : Narrow n c k) : narrow zoom s = some s := by
  rw [narrow_eq, if_neg]
  rw [maxGridPixels_lt_iff hs hzoom (.inl (by omega)) hhigh, not_not]
  exact h

theorem narrow_of_not_narrow (h : ¬ Narrow n c k) : narrow zoom s = narrow zoom (s / 2) := by
  rw [narrow_eq, if_pos]
  rw [maxGridPixels_lt_iff hs hzoom (.inl (by omega)) hhigh]
  exact h

end Halving

/-- **Halving ends** with a distance that is wide enough, if it begins with one. -/
theorem exists_narrow (hs : IsPower s k) (hzoom : Significand zoom n c) (hwide : Wide n c k)
    (hhigh : n + k ≤ 1023) :
    ∃ s' l, narrow zoom s = some s' ∧ IsPower s' l ∧ Wide n c l ∧ Narrow n c l := by
  have hleast := hzoom.exponent_le
  have hsum := hwide.le
  -- the lines come closer to each other, but not too close
  induction hrest : (n + k - 5).toNat generalizing s k with
  | zero =>
      have hnarrow : Narrow n c k := by
        unfold Narrow
        omega
      exact ⟨s, k, narrow_of_narrow hs hzoom hsum hhigh hnarrow, hs, hwide, hnarrow⟩
  | succ rest ih =>
      by_cases h : Narrow n c k
      · exact ⟨s, k, narrow_of_narrow hs hzoom hsum hhigh h, hs, hwide, h⟩
      · rw [narrow_of_not_narrow hs hzoom hsum hhigh h]
        have hwide' := wide_pred_of_not_narrow h
        exact ih (hs.half (by omega)) hwide' (by omega) hwide'.le (by omega)

/-- **Halving infinity does not end.** -/
theorem narrow_infinite (hzoom : Significand zoom n c)
    (hs : s.toModel.unpack = .infinity .positive) : narrow zoom s = none := by
  have hresult : ∀ s r, narrow zoom s = some r → s.toModel.unpack ≠ .infinity .positive := by
    -- it is enough that one round comes back to infinity
    refine Loop.run.partial_correctness _
      (fun (s : Float) _ => s.toModel.unpack ≠ .infinity .positive) ?_
    intro rounds ih s r hround hinfinite
    have hwide : maxGridPixels < s * zoom :=
      significand_maxGridPixels.lt_infinity (infinity_mul hinfinite hzoom)
    rw [if_pos (decide_eq_true hwide)] at hround
    exact ih (s / 2) r hround (infinity_half hinfinite)
  cases hnarrow : narrow zoom s with
  | none => rfl
  | some r => exact absurd hs (hresult s r hnarrow)

/-! ## The search -/

theorem gridSpacing_eq (hzoom : Significand zoom n c) :
    gridSpacing? zoom = (widen zoom 1).bind (narrow zoom) := by
  have hnot : ¬ zoom ≤ 0 := hzoom.not_le_zero
  unfold gridSpacing?
  rw [hzoom.isFinite, if_neg]
  simpa using hnot

/-- The search ends where the largest power of two is wide enough, and finds a power of two. -/
theorem exists_gridSpacing (hzoom : Significand zoom n c) (hwide : Wide n c 1023) :
    ∃ s k, gridSpacing? zoom = some s ∧ IsPower s k ∧ n + k ≤ 1023 ∧ Wide n c k ∧
      Narrow n c k := by
  have hleast := hzoom.exponent_le
  obtain ⟨s, k, hwiden, hs, hwide, hhigh⟩ :=
    exists_widen isPower_one hzoom (le_refl 0) (by omega) hwide
  obtain ⟨s', l, hnarrow, hs', hwide', hnarrow'⟩ := exists_narrow hs hzoom hwide hhigh
  refine ⟨s', l, ?_, hs', hnarrow'.le_exponent, hwide', hnarrow'⟩
  rw [gridSpacing_eq hzoom, hwiden, Option.bind_some, hnarrow]

/-- Where it is not, the search does not end. -/
theorem gridSpacing_eq_none (hzoom : Significand zoom n c) (hnever : ¬ Wide n c 1023) :
    gridSpacing? zoom = none := by
  have hleast := hzoom.exponent_le
  obtain ⟨s, hwiden, hs⟩ := widen_infinite isPower_one hzoom (le_refl 0) (by omega) hnever
  rw [gridSpacing_eq hzoom, hwiden, Option.bind_some, narrow_infinite hzoom hs]

theorem fifty_eq_scaled : (50 : ℚ) = scaled fiftyBits 5 := by
  norm_num [scaled, fiftyBits, twoPow_cast, zpow_neg]

theorem hundred_eq_scaled : (100 : ℚ) = scaled fiftyBits 6 := by
  norm_num [scaled, fiftyBits, twoPow_cast, zpow_neg]

theorem wide_iff_le (hzoom : Significand zoom n c) : Wide n c k ↔ 50 ≤ 2 ^ k * scaled c n := by
  rw [zpow_mul_scaled, fifty_eq_scaled,
    scaled_le_scaled_iff (by decide) (by decide) hzoom.leading hzoom.lt]
  rfl

theorem narrow_iff_le (hzoom : Significand zoom n c) :
    Narrow n c k ↔ 2 ^ k * scaled c n ≤ 100 := by
  rw [zpow_mul_scaled, hundred_eq_scaled,
    scaled_le_scaled_iff hzoom.leading hzoom.lt (by decide) (by decide)]
  rfl

/-- **The search for a distance ends for a zoom of at least `50 / 2^1023`, and for no smaller one;
what it finds is a power of two at which lines are between fifty and a hundred pixels apart.** For a
smaller zoom no power of two that can be stored is wide enough; doubling gets to infinity, and from
there halving gets nowhere. The last two bounds say the same about the product that the program
computes, which is exact. -/
theorem gridSpacing_in_range {zoom : Float} (hfinite : zoom.isFinite = true) (hpos : 0 < zoom) :
    ∃ z : ℚ, (Binary64.ofFloat zoom).toRat? = some z ∧ 0 < z ∧
      ((∃ s, gridSpacing? zoom = some s) ↔ 50 ≤ 2 ^ (1023 : ℤ) * z) ∧
      ∀ s, gridSpacing? zoom = some s → ∃ k : ℤ,
        (Binary64.ofFloat s).toRat? = some (2 ^ k) ∧
        (Binary64.ofFloat (s * zoom)).toRat? = some (2 ^ k * z) ∧
        50 ≤ 2 ^ k * z ∧ 2 ^ k * z ≤ 100 ∧
        minGridPixels ≤ s * zoom ∧ s * zoom ≤ maxGridPixels := by
  obtain ⟨n, c, hzoom⟩ := exists_significand hfinite hpos
  refine ⟨scaled c n, hzoom.toRat?_eq, scaled_pos hzoom.leading, ?_, ?_⟩
  · rw [← wide_iff_le hzoom]
    constructor
    · rintro ⟨s, hs⟩
      by_contra hnever
      rw [gridSpacing_eq_none hzoom hnever] at hs
      cases hs
    · intro hwide
      obtain ⟨s, k, hs, -⟩ := exists_gridSpacing hzoom hwide
      exact ⟨s, hs⟩
  · intro s hs
    have hends : Wide n c 1023 := by
      by_contra hnever
      rw [gridSpacing_eq_none hzoom hnever] at hs
      cases hs
    obtain ⟨s', k, hs', hpower, hhigh, hwide, hnarrow⟩ := exists_gridSpacing hzoom hends
    obtain rfl : s' = s := Option.some.inj (hs'.symm.trans hs)
    -- the product is wide, so it keeps all its bits and is exact
    have hlow : -1022 ≤ n + k ∨ 0 ≤ k := by
      have hsum := hwide.le
      omega
    refine ⟨k, hpower.toRat?_eq, ?_, (wide_iff_le hzoom).1 hwide, (narrow_iff_le hzoom).1 hnarrow,
      (minGridPixels_le_iff hpower hzoom hlow hhigh).2 hwide,
      (le_maxGridPixels_iff hpower hzoom hlow hhigh).2 hnarrow⟩
    rw [zpow_mul_scaled]
    exact (hpower.mul hzoom hlow hhigh).toRat?_eq

theorem toRat?_three : (Binary64.ofFloat 3).toRat? = some 3 := by
  have hthree : Significand 3 1 (3 * twoPow 51) :=
    ⟨⟨3 * twoPow 51, by decide, rfl, rfl⟩, by decide, by decide, by decide⟩
  rw [hthree.toRat?_eq]
  norm_num [scaled, twoPow_cast, zpow_neg]

theorem gridSpacing_in_range_three :
    ((3 : Float).isFinite = true ∧ (0 : Float) < 3) ∧ ∃ s, gridSpacing? 3 = some s ∧
      minGridPixels ≤ s * 3 ∧ s * 3 ≤ maxGridPixels ∧
      ∃ k : ℤ, (Binary64.ofFloat s).toRat? = some (2 ^ k) ∧ 50 ≤ (2 : ℚ) ^ k * 3 ∧
        (2 : ℚ) ^ k * 3 ≤ 100 := by
  have hfinite : (3 : Float).isFinite = true := rfl
  have hpos : (0 : Float) < 3 := by decide
  obtain ⟨z, hz, -, hends, hrange⟩ := gridSpacing_in_range hfinite hpos
  obtain rfl : 3 = z := Option.some.inj (toRat?_three.symm.trans hz)
  have hlargest : (50 : ℚ) ≤ 2 ^ (1023 : ℤ) * 3 := by
    have hpow : (2 : ℚ) ^ (5 : ℤ) ≤ 2 ^ (1023 : ℤ) := zpow_le_zpow_right₀ one_le_two (by decide)
    calc (50 : ℚ) ≤ 2 ^ (5 : ℤ) * 3 := by norm_num
      _ ≤ 2 ^ (1023 : ℤ) * 3 := mul_le_mul_of_nonneg_right hpow (by norm_num)
  obtain ⟨s, hs⟩ := hends.2 hlargest
  obtain ⟨k, hvalue, -, hlow, hhigh, hmin, hmax⟩ := hrange s hs
  exact ⟨⟨hfinite, hpos⟩, s, hs, hmin, hmax, k, hvalue, hlow, hhigh⟩

def leastFloat : Float := Float.ofBits 1

theorem significand_leastFloat : Significand leastFloat (-1074) (twoPow 52) :=
  ⟨⟨1, by decide, rfl, rfl⟩, by decide, by decide, by decide⟩

/-- **For the least positive zoom the search does not end.** -/
theorem gridSpacing_tiny :
    leastFloat.isFinite = true ∧ 0 < leastFloat ∧ gridSpacing? leastFloat = none :=
  ⟨rfl, by decide, gridSpacing_eq_none significand_leastFloat (by decide)⟩

end LinearCalc
