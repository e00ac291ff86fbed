import LinearCalc.Proofs.Floats.Significand

set_option autoImplicit false

/-! # Multiplying by powers of two

A product with a power of two has the bits of the other factor, and another exponent
(`IsPower.mul`), unless it is too small to keep all the bits or too large to be finite
(`IsPower.mul_large`). Halving a power of two gives a power of two (`IsPower.half`). Infinity stays
infinity (`infinity_mul`, `infinity_half`).
-/

namespace LinearCalc

open Float.Model (UnpackedFloat Format totalExponent)
open Float.Model.UnpackedFloat (Sign ExtendedMantissa)

variable {p x : Float} {n k : Int} {c : Nat}

/-! ## Rounding what is exact -/

/-- Bits that are zero are shifted out without a trace. -/
theorem shiftRight_exact (a shift : Nat) :
    (ExtendedMantissa.mk (a * twoPow shift) false false) >>> shift = ⟨a, false, false⟩ := by
  induction shift generalizing a with
  | zero =>
      rw [twoPow_zero, Nat.mul_one]
      rfl
  | succ shift ih =>
      -- the last bit is shifted out after all the others
      have hlast : (ExtendedMantissa.mk (a * 2) false false).shiftRightOne = ⟨a, false, false⟩ := by
        simp [ExtendedMantissa.shiftRightOne]
      rw [twoPow_succ, Nat.mul_comm (twoPow shift), ← Nat.mul_assoc]
      exact (congrArg ExtendedMantissa.shiftRightOne (ih (a * 2))).trans hlast

/-- **Rounding loses nothing** where only zeros are shifted out. -/
theorem roundWithAccuracy_exact (s : Sign) {a shift : Nat} {e : Int} (ha : 0 < a)
    (hshift : (Format.binary64.targetExponent (totalExponent a (e + shift)) - e).toNat = shift) :
    UnpackedFloat.roundWithAccuracy .binary64 s (a * twoPow shift) e .exact
      = .finite s a (e + shift) ha := by
  have htotal : totalExponent (a * twoPow shift) e = totalExponent a (e + shift) := by
    unfold totalExponent
    rw [log2_mul_twoPow ha]
    omega
  -- the rounding shifts twice, in case it carries into a new bit: here the first shift is exact,
  -- and the second one shifts by nothing
  have hfirst : UnpackedFloat.shiftToTargetExponent .binary64 (a * twoPow shift) e .exact
      = (⟨a, false, false⟩, e + shift) := by
    unfold UnpackedFloat.shiftToTargetExponent UnpackedFloat.shiftToExponent
    dsimp only
    rw [htotal, hshift]
    exact congrArg (·, _) (shiftRight_exact a shift)
  have hsecond : UnpackedFloat.shiftToTargetExponent .binary64 a (e + shift) .exact
      = (⟨a, false, false⟩, e + shift) := by
    have hnone : (Format.binary64.targetExponent (totalExponent a (e + shift))
        - (e + shift)).toNat = 0 := by omega
    unfold UnpackedFloat.shiftToTargetExponent UnpackedFloat.shiftToExponent
    dsimp only
    rw [hnone, Int.natCast_zero, Int.add_zero]
    rfl
  have hrounded : (ExtendedMantissa.mk a false false).roundedMantissa = a := rfl
  unfold UnpackedFloat.roundWithAccuracy
  rw [hfirst]
  dsimp only
  rw [hrounded, hsecond]
  exact dif_neg (Nat.ne_of_gt ha)

theorem totalExponent_eq {m : Nat} (hm : m * twoPow (spareBits n) = c) (hleading : twoPow 52 ≤ c)
    (hlt : c < twoPow 53) (h : 0 < m) : totalExponent m (storedExponent n) = n + 1 := by
  have hlog := log2_mul_twoPow h (spareBits n)
  rw [hm, log2_of_leading hleading hlt] at hlog
  unfold totalExponent
  unfold spareBits storedExponent at *
  omega

/-- Rounding aims at the exponent with which a number is stored. -/
theorem targetExponent_eq (n : Int) :
    Format.binary64.targetExponent (n + 1) = storedExponent n := by
  have hbits : (Format.binary64.mantissaBits : Int) = 53 := rfl
  have hleast : Format.binary64.minExponent = -1074 := rfl
  unfold Format.targetExponent storedExponent
  rw [hbits, hleast]
  congr 1
  omega

/-! ## Powers of two -/

/-- The number is `2^k`, and large enough to be stored with all its bits. -/
structure IsPower (p : Float) (k : Int) : Prop where
  significand : Significand p k (twoPow 52)
  le_exponent : -1022 ≤ k

theorem isPower_one : IsPower 1 0 := ⟨significand_one, by decide⟩

theorem IsPower.unpack (hp : IsPower p k) :
    ∃ hpos, p.toModel.unpack = .finite .positive (twoPow 52) (k - 52) hpos := by
  obtain ⟨⟨⟨m, hpos, hu, hm⟩, -, -, -⟩, hk⟩ := hp
  rw [spareBits_of_le hk, twoPow_zero, Nat.mul_one] at hm
  subst hm
  rw [storedExponent_of_le hk] at hu
  exact ⟨hpos, hu⟩

theorem isPower_pack {h : 0 < twoPow 52} (hlow : -1022 ≤ k) (hhigh : k ≤ 1023) :
    IsPower (.ofModel (.pack (.finite .positive (twoPow 52) (k - 52) h))) k := by
  have hspare : twoPow 52 * twoPow (spareBits k) = twoPow 52 := by
    rw [spareBits_of_le hlow, twoPow_zero, Nat.mul_one]
  rw [← storedExponent_of_le hlow]
  exact ⟨significand_pack h hspare (Nat.le_refl _) (by decide) hhigh, hlow⟩

/-- The product of a power of two and a number is put together from the bits of the number. -/
theorem IsPower.mul_eq (hp : IsPower p k) (hx : Significand x n c)
    (hfits : -1022 ≤ n + k ∨ 0 ≤ k) :
    ∃ m h, p * x = .ofModel (.pack (.finite .positive m (storedExponent (n + k)) h)) ∧
      m * twoPow (spareBits (n + k)) = c := by
  obtain ⟨hpos, hpu⟩ := hp.unpack
  obtain ⟨m, hm0, hxu, hm⟩ := hx.unpacked
  have hspare := hx.spareBits_le
  have hlow := hp.le_exponent
  -- this many bits of the product are shifted out
  obtain ⟨shift, hshift⟩ : ∃ shift : Nat,
      (shift : Int) = storedExponent (n + k) - (k - 52 + storedExponent n) := by
    refine ⟨(storedExponent (n + k) - (k - 52 + storedExponent n)).toNat, ?_⟩
    unfold spareBits storedExponent at *
    omega
  have hle : shift ≤ 52 := by
    unfold storedExponent at *
    omega
  have hbits : m * twoPow (52 - shift) * twoPow (spareBits (n + k)) = c := by
    rw [Nat.mul_assoc, ← twoPow_add, ← hm]
    congr 2
    unfold spareBits storedExponent at *
    omega
  have ha : 0 < m * twoPow (52 - shift) := Nat.mul_pos hm0 (twoPow_pos _)
  have hproduct : twoPow 52 * m = m * twoPow (52 - shift) * twoPow shift := by
    rw [Nat.mul_assoc, ← twoPow_add, Nat.sub_add_cancel hle, Nat.mul_comm]
  have hexponent : k - 52 + storedExponent n + shift = storedExponent (n + k) := by omega
  have hround : UnpackedFloat.roundWithAccuracy .binary64 .positive
      (m * twoPow (52 - shift) * twoPow shift) (k - 52 + storedExponent n) .exact
      = .finite .positive (m * twoPow (52 - shift)) (k - 52 + storedExponent n + shift) ha := by
    refine roundWithAccuracy_exact .positive ha ?_
    rw [hexponent, totalExponent_eq hbits hx.leading hx.lt ha, targetExponent_eq]
    omega
  have hpositive : Sign.positive * Sign.positive = Sign.positive := rfl
  refine ⟨m * twoPow (52 - shift), ha, ?_, hbits⟩
  rw [float_mul_eq, hpu, hxu, mul_finite, hproduct, hpositive, hround, hexponent]

/-- **Multiplying by a power of two changes nothing but the exponent**, unless bits are lost. -/
theorem IsPower.mul (hp : IsPower p k) (hx : Significand x n c) (hfits : -1022 ≤ n + k ∨ 0 ≤ k)
    (hn : n + k ≤ 1023) : Significand (p * x) (n + k) c := by
  obtain ⟨m, h, hmul, hbits⟩ := hp.mul_eq hx hfits
  rw [hmul]
  exact significand_pack h hbits hx.leading hx.lt hn

/-- **A product that is too large is infinite.** -/
theorem IsPower.mul_large (hp : IsPower p k) (hx : Significand x n c) (hn : 1023 < n + k) :
    (p * x).toModel.unpack = .infinity .positive := by
  obtain ⟨m, h, hmul, -⟩ := hp.mul_eq hx (.inl (by omega))
  rw [hmul]
  refine unpack_pack_of_large h ?_
  unfold storedExponent
  omega

/-- Twice a power of two is the next one. -/
theorem IsPower.double (hp : IsPower p k) (hk : k < 1023) : IsPower (p * 2) (k + 1) := by
  have hlow := hp.le_exponent
  have hproduct := hp.mul significand_two (.inl (by omega)) (by omega)
  rw [Int.add_comm] at hproduct
  exact ⟨hproduct, by omega⟩

/-- Half a power of two is the one before. -/
theorem IsPower.half (hp : IsPower p k) (hk : -1020 ≤ k) : IsPower (p / 2) (k - 1) := by
  obtain ⟨hpos, hpu⟩ := hp.unpack
  have htwo : (2 : Float).toModel.unpack = .finite .positive (twoPow 52) (-51) hpos := rfl
  have hlog : (twoPow 52).log2 = 52 := log2_of_leading (Nat.le_refl _) (by decide)
  have htarget : min (k - 52 - -51) (Format.binary64.targetExponent
      (totalExponent (twoPow 52) (k - 52) - totalExponent (twoPow 52) (-51))) = k - 54 := by
    have htotal : totalExponent (twoPow 52) (k - 52) - totalExponent (twoPow 52) (-51)
        = k - 2 + 1 := by
      unfold totalExponent
      omega
    rw [htotal, targetExponent_eq]
    unfold storedExponent
    omega
  -- the division is by two as a float, whose mantissa has fifty-three bits; the quotient comes out
  -- with one bit too many, and the rounding takes it off again
  have hcore : UnpackedFloat.divCore .binary64 (twoPow 52) (k - 52) (twoPow 52) (-51)
      = (twoPow 52 * twoPow 1, k - 54, .exact) := by
    have hshift : (k - 52 - -51 - (k - 54)).toNat = 53 := by omega
    unfold UnpackedFloat.divCore
    dsimp only
    rw [htarget, hshift]
    rfl
  have hround : UnpackedFloat.roundWithAccuracy .binary64 .positive (twoPow 52 * twoPow 1)
      (k - 54) .exact = .finite .positive (twoPow 52) (k - 54 + (1 : Nat)) hpos := by
    refine roundWithAccuracy_exact .positive hpos ?_
    have htotal : totalExponent (twoPow 52) (k - 54 + (1 : Nat)) = k - 1 + 1 := by
      unfold totalExponent
      omega
    rw [htotal, targetExponent_eq]
    unfold storedExponent
    omega
  have hpositive : Sign.positive / Sign.positive = Sign.positive := rfl
  have hexponent : k - 54 + ((1 : Nat) : Int) = k - 1 - 52 := by omega
  have hmost := hp.significand.exponent_le
  rw [float_div_eq, hpu, htwo, div_finite, hcore, hpositive, hround, hexponent]
  exact isPower_pack (by omega) (by omega)

/-! ## Infinity -/

theorem infinity_mul (hp : p.toModel.unpack = .infinity .positive) (hx : Significand x n c) :
    (p * x).toModel.unpack = .infinity .positive := by
  obtain ⟨m, hm0, hxu, -⟩ := hx.unpacked
  rw [float_mul_eq, hp, hxu]
  exact unpack_pack_infinity .positive

/-- Half of infinity is infinity. -/
theorem infinity_half (hp : p.toModel.unpack = .infinity .positive) :
    (p / 2).toModel.unpack = .infinity .positive := by
  rw [float_div_eq, hp]
  exact unpack_pack_infinity .positive

theorem Significand.lt_infinity (hx : Significand x n c)
    (hp : p.toModel.unpack = .infinity .positive) : x < p := by
  obtain ⟨m, hm0, hxu, -⟩ := hx.unpacked
  rw [float_lt_iff, hp, hxu]
  rfl

theorem Significand.not_infinity_lt (hx : Significand x n c)
    (hp : p.toModel.unpack = .infinity .positive) : ¬ p < x := by
  obtain ⟨m, hm0, hxu, -⟩ := hx.unpacked
  rw [float_lt_iff, hp, hxu]
  rintro ⟨⟩

end LinearCalc
