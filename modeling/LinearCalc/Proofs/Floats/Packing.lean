import LinearCalc.Number.Binary64

set_option autoImplicit false

/-! # How numbers are stored

Arithmetic takes a floating-point number apart into a sign, a mantissa and an exponent, and puts
the result together again. What it finds is what `Binary64.ofFloat` reads off the bits
(`Binary64.ofFloat_eq`). A mantissa and an exponent that fit (`Stored`) come back unchanged when
they are put together and taken apart again (`unpack_pack_of_stored`), and with an exponent that is
too large the number is infinite (`unpack_pack_of_large`).
-/

namespace LinearCalc

open Float.Model (UnpackedFloat Format)
open Float.Model.UnpackedFloat (Sign)

/-! ## The fields of a number -/

section Fields

variable (bits : BitVec Format.binary64.numBits)

theorem toNat_unpackExponent :
    (UnpackedFloat.unpackExponent bits).toNat = bits.toNat / twoPow 52 % twoPow 11 := by
  simp [UnpackedFloat.unpackExponent, BitVec.extractLsb_toNat, Nat.shiftRight_eq_div_pow, twoPow]

theorem toNat_unpackMantissa :
    (UnpackedFloat.unpackMantissa bits).toNat = bits.toNat % twoPow 52 := by
  simp [UnpackedFloat.unpackMantissa, BitVec.extractLsb_toNat, twoPow]

theorem unpackExponent_eq_top_iff :
    UnpackedFloat.unpackExponent bits = -1#11 ↔ bits.toNat / twoPow 52 % twoPow 11 = 2047 := by
  rw [← toNat_unpackExponent]
  exact BitVec.toNat_inj.symm

theorem unpackExponent_eq_zero_iff :
    UnpackedFloat.unpackExponent bits = 0#11 ↔ bits.toNat / twoPow 52 % twoPow 11 = 0 := by
  rw [← toNat_unpackExponent]
  exact BitVec.toNat_inj.symm

theorem unpackMantissa_eq_zero_iff :
    UnpackedFloat.unpackMantissa bits = 0#52 ↔ bits.toNat % twoPow 52 = 0 := by
  rw [← toNat_unpackMantissa]
  exact BitVec.toNat_inj.symm

/-- The first bit is the sign. -/
theorem ofBitVec_unpackSign :
    (Sign.ofBitVec (UnpackedFloat.unpackSign bits) == .negative)
      = decide (twoPow 63 ≤ bits.toNat) := by
  have hbits : bits.toNat < 2 ^ 64 := bits.isLt
  have htop : twoPow 63 = 2 ^ 63 := rfl
  have hsign : (UnpackedFloat.unpackSign bits).toNat = bits.toNat / 2 ^ 63 := by
    -- its width is an expression of the format, which `unfold` would leave in the way
    delta UnpackedFloat.unpackSign
    simp [BitVec.extractLsb_toNat, Nat.shiftRight_eq_div_pow]
    omega
  have hzero : UnpackedFloat.unpackSign bits = 0#1 ↔ bits.toNat / 2 ^ 63 = 0 := by
    rw [← hsign]
    exact BitVec.toNat_inj.symm
  unfold Sign.ofBitVec
  by_cases h : UnpackedFloat.unpackSign bits = 0#1
  · have hlow : ¬ twoPow 63 ≤ bits.toNat := by
      have hquotient := hzero.1 h
      omega
    rw [if_pos h, decide_eq_false hlow]
    rfl
  · have hhigh : twoPow 63 ≤ bits.toNat := by
      refine Nat.le_of_not_lt (fun hlt => h (hzero.2 ?_))
      omega
    rw [if_neg h, decide_eq_true hhigh]
    rfl

/-- The one that is understood before the fraction of a number. -/
theorem toNat_implicit_append (fraction : BitVec 52) :
    (1#1 ++ fraction).toNat = twoPow 52 + fraction.toNat := by
  rw [BitVec.toNat_append, ← Nat.shiftLeft_add_eq_or_of_lt fraction.isLt]
  simp [Nat.shiftLeft_eq, twoPow]

theorem pos_of_mantissa_ne_zero {bits : BitVec Format.binary64.numBits}
    (h : ¬ UnpackedFloat.unpackMantissa bits = 0#52) :
    0 < (UnpackedFloat.unpackMantissa bits).toNat :=
  Nat.pos_of_ne_zero (fun hzero => h (BitVec.eq_of_toNat_eq hzero))

theorem pos_of_implicit (fraction : BitVec 52) : 0 < (1#1 ++ fraction).toNat := by
  rw [toNat_implicit_append]
  exact Nat.lt_of_lt_of_le (twoPow_pos 52) (Nat.le_add_right _ _)

/-- How a number is taken apart: all ones in the exponent stand for what is not finite, and all
zeros for what has no implicit one. -/
theorem unpack_eq :
    UnpackedFloat.unpack .binary64 bits =
      if UnpackedFloat.unpackExponent bits = -1#11 then
        if UnpackedFloat.unpackMantissa bits = 0#52 then
          .infinity (Sign.ofBitVec (UnpackedFloat.unpackSign bits))
        else .notANumber
      else if UnpackedFloat.unpackExponent bits = 0#11 then
        if h : UnpackedFloat.unpackMantissa bits = 0#52 then
          .zero (Sign.ofBitVec (UnpackedFloat.unpackSign bits))
        else
          .finite (Sign.ofBitVec (UnpackedFloat.unpackSign bits))
            (UnpackedFloat.unpackMantissa bits).toNat
            ((UnpackedFloat.unpackExponent bits).toNat - (1023 + 52) + 1)
            (pos_of_mantissa_ne_zero h)
      else
        .finite (Sign.ofBitVec (UnpackedFloat.unpackSign bits))
          (1#1 ++ UnpackedFloat.unpackMantissa bits).toNat
          ((UnpackedFloat.unpackExponent bits).toNat - (1023 + 52)) (pos_of_implicit _) := rfl

end Fields

/-! ## Taking apart -/

/-- What arithmetic calculates with, in the terms of this library. -/
def Binary64.ofUnpacked : UnpackedFloat → Binary64
  | .notANumber => nan
  | .infinity s => infinite (s == .negative)
  | .zero s => finite (s == .negative) 0 (-1074)
  | .finite s m e _ => finite (s == .negative) m e

theorem Binary64.ofUnpacked_notANumber : ofUnpacked .notANumber = nan := rfl

theorem Binary64.ofUnpacked_infinity (s : Sign) :
    ofUnpacked (.infinity s) = infinite (s == .negative) := rfl

theorem Binary64.ofUnpacked_zero (s : Sign) :
    ofUnpacked (.zero s) = finite (s == .negative) 0 (-1074) := rfl

theorem Binary64.ofUnpacked_finite (s : Sign) (m : Nat) (e : Int) (h : 0 < m) :
    ofUnpacked (.finite s m e h) = finite (s == .negative) m e := rfl

/-- **A number is taken apart here just as arithmetic takes it apart.** -/
theorem Binary64.ofFloat_eq (x : Float) : ofFloat x = ofUnpacked x.toModel.unpack := by
  have hbits : x.toBits.toNat = x.toModel.toBits.toBitVec.toNat := rfl
  unfold ofFloat Float.Model.unpack
  rw [hbits]
  generalize x.toModel.toBits.toBitVec = bits
  have hsign := ofBitVec_unpackSign bits
  have hfraction := toNat_unpackMantissa bits
  have hexponent := toNat_unpackExponent bits
  rw [unpack_eq]
  -- both look at the exponent first: all ones, all zeros, or anything else
  by_cases htop : bits.toNat / twoPow 52 % twoPow 11 = 2047
  · rw [if_pos ((unpackExponent_eq_top_iff bits).2 htop), if_pos htop]
    by_cases hzero : bits.toNat % twoPow 52 = 0
    · rw [if_pos ((unpackMantissa_eq_zero_iff bits).2 hzero), if_pos hzero,
        ofUnpacked_infinity, hsign]
    · rw [if_neg (fun h => hzero ((unpackMantissa_eq_zero_iff bits).1 h)), if_neg hzero,
        ofUnpacked_notANumber]
  · rw [if_neg (fun h => htop ((unpackExponent_eq_top_iff bits).1 h)), if_neg htop]
    by_cases hleast : bits.toNat / twoPow 52 % twoPow 11 = 0
    · rw [if_pos ((unpackExponent_eq_zero_iff bits).2 hleast), if_pos hleast]
      by_cases hzero : bits.toNat % twoPow 52 = 0
      · rw [dif_pos ((unpackMantissa_eq_zero_iff bits).2 hzero), ofUnpacked_zero, hsign,
          hzero]
      · rw [dif_neg (fun h => hzero ((unpackMantissa_eq_zero_iff bits).1 h)),
          ofUnpacked_finite, hsign, hfraction, hexponent, hleast]
        rfl
    · have himplicit := toNat_implicit_append (@UnpackedFloat.unpackMantissa .binary64 bits)
      rw [if_neg (fun h => hleast ((unpackExponent_eq_zero_iff bits).1 h)), if_neg hleast,
        ofUnpacked_finite, hsign, himplicit, hfraction, hexponent]
      rfl

/-- Mantissa and exponent of a number as they are stored: the mantissa has fifty-three bits, of
which the first is one unless the exponent is the least. -/
structure Stored (m : Nat) (e : Int) : Prop where
  mantissa_lt : m < twoPow 53
  least_le : -1074 ≤ e
  le_most : e ≤ 971
  leading : twoPow 52 ≤ m ∨ e = -1074

/-- **What is taken apart was stored.** -/
theorem stored_of_unpack {x : Float} {s : Sign} {m : Nat} {e : Int} {h : 0 < m}
    (hx : x.toModel.unpack = .finite s m e h) : Stored m e := by
  have hfloat := Binary64.ofFloat_eq x
  rw [hx, Binary64.ofUnpacked_finite] at hfloat
  unfold Binary64.ofFloat at hfloat
  dsimp only at hfloat
  have hsucc : twoPow 53 = twoPow 52 * 2 := rfl
  have heleven : twoPow 11 = 2048 := rfl
  have hfraction : x.toBits.toNat % twoPow 52 < twoPow 52 := Nat.mod_lt _ (twoPow_pos 52)
  have hexponent : x.toBits.toNat / twoPow 52 % twoPow 11 < twoPow 11 :=
    Nat.mod_lt _ (twoPow_pos 11)
  -- the greatest exponent is infinity or no number; the least one has no leading bit, and every
  -- other one has it
  split at hfloat
  · split at hfloat <;> cases hfloat
  · split at hfloat
    · obtain ⟨-, rfl, rfl⟩ := Binary64.finite.inj hfloat
      exact ⟨by omega, by omega, by omega, .inr rfl⟩
    · obtain ⟨-, rfl, rfl⟩ := Binary64.finite.inj hfloat
      exact ⟨by omega, by omega, by omega, .inl (by omega)⟩

/-! ## Putting together -/

theorem ofBitVec_unpackSign_packComponents (s : Sign) (exponent : BitVec 11)
    (mantissa : BitVec 52) :
    Sign.ofBitVec (@UnpackedFloat.unpackSign .binary64
      (UnpackedFloat.packComponents .binary64 s exponent mantissa)) = s := by
  -- the sign stands before the exponent, and this before the mantissa
  delta UnpackedFloat.unpackSign
  unfold UnpackedFloat.packComponents BitVec.extractLsb
  rw [BitVec.extractLsb'_append_eq_of_le (by decide),
    BitVec.extractLsb'_append_eq_of_le (by decide)]
  cases s <;> rfl

theorem log2_of_leading {m : Nat} (hlow : twoPow 52 ≤ m) (hhigh : m < twoPow 53) :
    m.log2 = 52 := by
  have hpos := twoPow_pos 52
  exact (Nat.log2_eq_iff (by omega)).2 ⟨hlow, hhigh⟩

theorem finite_congr {s t : Sign} {m m' : Nat} {e e' : Int} {h : 0 < m} {h' : 0 < m'}
    (hs : s = t) (hm : m = m') (he : e = e') :
    UnpackedFloat.finite s m e h = .finite t m' e' h' := by
  subst hs hm he
  rfl

/-- A mantissa that has all its bits is stored without the first one. -/
theorem unpack_packComponents_normal (s : Sign) {exponent mantissa : Nat} (hpos : 0 < exponent)
    (hexponent : exponent < 2047) (hlow : twoPow 52 ≤ mantissa) (hhigh : mantissa < twoPow 53)
    (h : 0 < mantissa) :
    UnpackedFloat.unpack .binary64 (UnpackedFloat.packComponents .binary64 s
      (BitVec.ofNat 11 exponent) (BitVec.ofNat 52 mantissa))
      = .finite s mantissa (exponent - 1075) h := by
  have hbiased : (BitVec.ofNat 11 exponent).toNat = exponent := by
    rw [BitVec.toNat_ofNat, Nat.mod_eq_of_lt (by omega)]
  have hne : ∀ w : BitVec 11, exponent ≠ w.toNat → BitVec.ofNat 11 exponent ≠ w := by
    rintro w hw rfl
    exact hw hbiased.symm
  -- the exponent is neither of the two that are kept for the other kinds of numbers
  have htop : BitVec.ofNat 11 exponent ≠ -1#11 := hne _ (Nat.ne_of_lt hexponent)
  have hleast : BitVec.ofNat 11 exponent ≠ 0#11 := hne _ (Nat.ne_of_gt hpos)
  have hmantissa : (1#1 ++ BitVec.ofNat 52 mantissa).toNat = mantissa := by
    have hsucc : twoPow 53 = twoPow 52 * 2 := rfl
    have hpow : twoPow 52 = 2 ^ 52 := rfl
    rw [toNat_implicit_append, BitVec.toNat_ofNat]
    omega
  have hsign := ofBitVec_unpackSign_packComponents s (BitVec.ofNat 11 exponent)
    (BitVec.ofNat 52 mantissa)
  rw [unpack_eq, if_neg (by rwa [UnpackedFloat.unpackExponent_packComponents]),
    if_neg (by rwa [UnpackedFloat.unpackExponent_packComponents])]
  refine finite_congr hsign ?_ ?_
  · rw [UnpackedFloat.unpackMantissa_packComponents, hmantissa]
  · rw [UnpackedFloat.unpackExponent_packComponents, hbiased]
    rfl

/-- A mantissa that begins with zeros is stored as it is, with the least exponent. -/
theorem unpack_packComponents_subnormal (s : Sign) {mantissa : Nat}
    (hhigh : mantissa < twoPow 52) (h : 0 < mantissa) :
    UnpackedFloat.unpack .binary64 (UnpackedFloat.packComponents .binary64 s 0#11
      (BitVec.ofNat 52 mantissa)) = .finite s mantissa (-1074) h := by
  have hmantissa : (BitVec.ofNat 52 mantissa).toNat = mantissa := by
    rw [BitVec.toNat_ofNat]
    exact Nat.mod_eq_of_lt hhigh
  -- the exponent alone does not tell a small number from zero: the mantissa must
  have hzero : BitVec.ofNat 52 mantissa ≠ 0#52 := by
    intro heq
    have htoNat := congrArg BitVec.toNat heq
    rw [hmantissa] at htoNat
    simp at htoNat
    omega
  have htop : 0#11 ≠ -1#11 := by decide
  have hsign := ofBitVec_unpackSign_packComponents s 0#11 (BitVec.ofNat 52 mantissa)
  rw [unpack_eq, if_neg (by rwa [UnpackedFloat.unpackExponent_packComponents]),
    if_pos UnpackedFloat.unpackExponent_packComponents,
    dif_neg (by rwa [UnpackedFloat.unpackMantissa_packComponents])]
  refine finite_congr hsign ?_ ?_
  · rw [UnpackedFloat.unpackMantissa_packComponents, hmantissa]
  · rw [UnpackedFloat.unpackExponent_packComponents]
    rfl

/-- The exponent as it is stored. -/
theorem biased_eq (e : Int) :
    (e + (Format.binary64.exponentBias : Int) + (52 : Nat)).toNat = (e + 1075).toNat := by
  have hbias : (Format.binary64.exponentBias : Int) = 1023 := rfl
  rw [hbias]
  congr 1
  omega

/-- How a number is put together: too large an exponent makes it infinite, and only a mantissa that
has all its bits is stored without the first one. -/
theorem pack_finite (s : Sign) {m : Nat} (e : Int) (h : 0 < m) :
    UnpackedFloat.pack .binary64 (.finite s m e h) =
      if 2048 ≤ (e + 1075).toNat + 1 then UnpackedFloat.packedInfinity .binary64 s
      else if m.log2 + 1 = 53 then
        UnpackedFloat.packComponents .binary64 s (BitVec.ofNat 11 (e + 1075).toNat)
          (BitVec.ofNat 52 m)
      else UnpackedFloat.packComponents .binary64 s 0#11 (BitVec.ofNat 52 m) := by
  rw [← biased_eq]
  rfl

/-- **What can be stored is taken apart again as it was.** -/
theorem unpack_pack_of_stored {s : Sign} {m : Nat} {e : Int} (h : 0 < m) (hstored : Stored m e) :
    (Float.Model.pack (.finite s m e h)).unpack = .finite s m e h := by
  obtain ⟨hhigh, hleast, hmost, hleading⟩ := hstored
  show UnpackedFloat.unpack .binary64 (UnpackedFloat.pack .binary64 (.finite s m e h)) = _
  rw [pack_finite, if_neg (by omega)]
  by_cases hlow : twoPow 52 ≤ m
  · have hlog : m.log2 + 1 = 53 := by
      rw [log2_of_leading hlow hhigh]
    rw [if_pos hlog, unpack_packComponents_normal s (by omega) (by omega) hlow hhigh h]
    exact finite_congr rfl rfl (by omega)
  · have hlog : m.log2 + 1 ≠ 53 := by
      have hless : m.log2 < 52 := (Nat.log2_lt (by omega)).2 (Nat.lt_of_not_le hlow)
      omega
    rw [if_neg hlog, unpack_packComponents_subnormal s (by omega) h]
    exact finite_congr rfl rfl (by omega)

theorem unpack_pack_infinity (s : Sign) :
    (Float.Model.pack (.infinity s)).unpack = .infinity s := by
  cases s <;> rfl

/-- **A number that is too large to be stored is infinite.** -/
theorem unpack_pack_of_large {s : Sign} {m : Nat} {e : Int} (h : 0 < m) (he : 971 < e) :
    (Float.Model.pack (.finite s m e h)).unpack = .infinity s := by
  have hpack : UnpackedFloat.pack .binary64 (.finite s m e h)
      = UnpackedFloat.packedInfinity .binary64 s := by
    rw [pack_finite, if_pos (by omega)]
  rw [← unpack_pack_infinity s]
  exact congrArg (UnpackedFloat.unpack .binary64) hpack

/-! ## Arithmetic -/

/-- Factors are taken apart, and the product is put together. -/
theorem float_mul_eq (x y : Float) :
    x * y = .ofModel (.pack (.mul .binary64 x.toModel.unpack y.toModel.unpack)) := rfl

/-- A quotient likewise. -/
theorem float_div_eq (x y : Float) :
    x / y = .ofModel (.pack (.div .binary64 x.toModel.unpack y.toModel.unpack)) := rfl

/-- The product of two finite numbers is rounded. -/
theorem mul_finite (s t : Sign) {m l : Nat} (e f : Int) (h : 0 < m) (h' : 0 < l) :
    UnpackedFloat.mul .binary64 (.finite s m e h) (.finite t l f h') =
      .roundWithAccuracy .binary64 (s * t) (m * l) (e + f) .exact := rfl

/-- The quotient of two finite numbers is rounded, with what is known of the remainder. -/
theorem div_finite (s t : Sign) {m l : Nat} (e f : Int) (h : 0 < m) (h' : 0 < l) :
    UnpackedFloat.div .binary64 (.finite s m e h) (.finite t l f h') =
      .roundWithAccuracy .binary64 (s / t) (UnpackedFloat.divCore .binary64 m e l f).1
        (UnpackedFloat.divCore .binary64 m e l f).2.1
        (UnpackedFloat.divCore .binary64 m e l f).2.2 := rfl

end LinearCalc
