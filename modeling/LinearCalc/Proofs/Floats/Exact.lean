import LinearCalc.Proofs.Floats.Rationals

set_option autoImplicit false

/-! # Exact arithmetic

Where the sum or the product of two numbers is one of the rational numbers that can be stored, the
floating-point operation finds just that number (`exactValue?_mul`, `IsExactly.add`). Two stored
numbers with one value are the same number, up to the sign of zero; and a sum that begins with zero
never comes to negative zero (`IsExactly.unique`).
-/

namespace LinearCalc

open Float.Model (UnpackedFloat Format totalExponent)
open Float.Model.UnpackedFloat (Sign)

/-- The rational number that a floating-point number is, if it is finite. -/
def exactValue? (x : Float) : Option ℚ := (Binary64.ofFloat x).toRat?

/-- The number `m · 2^e` with a sign. -/
def signedValue (s : Sign) (m : ℕ) (e : ℤ) : ℚ := (s.apply m : ℤ) * 2 ^ e

def Representable (q : ℚ) : Prop := ∃ x, exactValue? x = some q

variable {x y : Float} {a b q : ℚ} {m n : ℕ} {e k : ℤ}

/-! ## Numbers and their values -/

theorem exactValue?_zero {s : Sign} (hx : x.toModel.unpack = .zero s) : exactValue? x = some 0 := by
  rw [exactValue?, Binary64.ofFloat_eq, hx]
  cases s <;> simp [Binary64.ofUnpacked_zero, Binary64.toRat?, Binary64.signed]

theorem exactValue?_finite {s : Sign} {h : 0 < m} (hx : x.toModel.unpack = .finite s m e h) :
    exactValue? x = some (signedValue s m e) := by
  rw [exactValue?, Binary64.ofFloat_eq, hx]
  cases s <;> rfl

/-- A number with a value is a zero, or it is stored with a mantissa and an exponent. -/
theorem exactValue?_cases (h : exactValue? x = some q) :
    (∃ s, x.toModel.unpack = .zero s ∧ q = 0) ∨
    ∃ s m e hm, x.toModel.unpack = .finite s m e hm ∧ Stored m e ∧ q = signedValue s m e := by
  cases hx : x.toModel.unpack with
  | notANumber =>
      rw [exactValue?, Binary64.ofFloat_eq, hx] at h
      cases h
  | infinity s =>
      rw [exactValue?, Binary64.ofFloat_eq, hx] at h
      cases h
  | zero s =>
      rw [exactValue?_zero hx] at h
      exact .inl ⟨s, rfl, (Option.some.inj h).symm⟩
  | finite s m e hm =>
      rw [exactValue?_finite hx] at h
      exact .inr ⟨s, m, e, hm, rfl, stored_of_unpack hx, (Option.some.inj h).symm⟩

/-- A rational number other than zero that can be stored has a mantissa and an exponent. -/
theorem Representable.exists_stored (h : Representable q) (hq : q ≠ 0) :
    ∃ (s : Sign) (m : ℕ) (e : ℤ), 0 < m ∧ Stored m e ∧ q = signedValue s m e := by
  obtain ⟨x, hx⟩ := h
  rcases exactValue?_cases hx with ⟨s, -, rfl⟩ | ⟨s, m, e, hm, -, hstored, hq⟩
  · exact absurd rfl hq
  · exact ⟨s, m, e, hm, hstored, hq⟩

/-! ## One value in two scales -/

/-- The same number with a smaller exponent has a larger mantissa. -/
theorem eq_mul_twoPow_of_scaled (h : (n : ℚ) * 2 ^ k = m * 2 ^ e) (hle : k ≤ e) :
    n = m * twoPow (e - k).toNat := by
  have hexponent : e = ((e - k).toNat : ℤ) + k := by omega
  have hpow : (2 : ℚ) ^ k ≠ 0 := by positivity
  have hcast : (n : ℚ) = (m * twoPow (e - k).toNat : ℕ) := by
    rw [Nat.cast_mul, twoPow_cast]
    refine mul_right_cancel₀ hpow ?_
    rw [h, mul_assoc, ← zpow_add₀ two_ne_zero, ← hexponent]
  exact_mod_cast hcast

/-- The position of the first bit depends on the value only. -/
theorem totalExponent_of_scaled (hn : 0 < n) (hm : 0 < m) (h : (n : ℚ) * 2 ^ k = m * 2 ^ e) :
    totalExponent n k = totalExponent m e := by
  unfold totalExponent
  rcases le_total k e with hle | hle
  · rw [eq_mul_twoPow_of_scaled h hle, log2_mul_twoPow hm]
    omega
  · rw [eq_mul_twoPow_of_scaled h.symm hle, log2_mul_twoPow hn]
    omega

/-- Rounding aims at the exponent of what is stored. -/
theorem Stored.targetExponent (h : Stored m e) (hm : 0 < m) :
    Format.binary64.targetExponent (totalExponent m e) = e := by
  have hbits : (Format.binary64.mantissaBits : Int) = 53 := rfl
  have hleast : Format.binary64.minExponent = -1074 := rfl
  have hlog : m.log2 < 53 := (Nat.log2_lt (by omega)).2 h.mantissa_lt
  have hlow := h.least_le
  unfold Format.targetExponent totalExponent
  rw [hbits, hleast]
  rcases h.leading with hleading | hleading
  · rw [log2_of_leading hleading h.mantissa_lt]
    omega
  · omega

/-- **What is stored is known by its value.** -/
theorem Stored.unique (h : Stored m e) (h' : Stored n k) (hm : 0 < m) (hn : 0 < n)
    (hvalue : (m : ℚ) * 2 ^ e = n * 2 ^ k) : m = n ∧ e = k := by
  have hexponent : e = k := by
    rw [← h.targetExponent hm, ← h'.targetExponent hn, totalExponent_of_scaled hm hn hvalue]
  subst hexponent
  have hmantissa := eq_mul_twoPow_of_scaled hvalue (le_refl e)
  rw [Int.sub_self, Int.toNat_zero, twoPow_zero, Nat.mul_one] at hmantissa
  exact ⟨hmantissa, rfl⟩

/-- A value that is not zero has one sign. -/
theorem sign_of_signedValue {s t : Sign} (hn : 0 < n) (hm : 0 < m)
    (h : signedValue s n k = signedValue t m e) : s = t ∧ (n : ℚ) * 2 ^ k = m * 2 ^ e := by
  have hleft : (0 : ℚ) < n * 2 ^ k := by positivity
  have hright : (0 : ℚ) < m * 2 ^ e := by positivity
  cases s <;> cases t <;>
    simp only [signedValue, Sign.apply, Int.cast_neg, Int.cast_natCast, neg_mul] at h
  · exact ⟨rfl, by linarith⟩
  · linarith
  · linarith
  · exact ⟨rfl, h⟩

/-! ## Rounding -/

/-- **A value that can be stored is rounded to itself.** -/
theorem roundWithAccuracy_of_stored (s : Sign) (hstored : Stored m e) (hm : 0 < m)
    (h : (n : ℚ) * 2 ^ k = m * 2 ^ e) (hle : k ≤ e) :
    UnpackedFloat.roundWithAccuracy .binary64 s n k .exact = .finite s m e hm := by
  have hexponent : k + ((e - k).toNat : ℤ) = e := by omega
  have hshift : (Format.binary64.targetExponent (totalExponent m (k + ((e - k).toNat : ℤ)))
      - k).toNat = (e - k).toNat := by
    rw [hexponent, hstored.targetExponent hm]
  -- the bits that are dropped are the zeros behind the mantissa
  rw [eq_mul_twoPow_of_scaled h hle, roundWithAccuracy_exact s hm hshift]
  congr 1

/-- Bits that are made up do not change the value. -/
theorem decreaseExponent_value (n : ℕ) (k t : ℤ) :
    ((UnpackedFloat.decreaseExponent n k t).1 : ℚ)
      * 2 ^ (UnpackedFloat.decreaseExponent n k t).2 = n * 2 ^ k := by
  have hpow : (2 : ℚ) ^ k = twoPow (k - t).toNat * 2 ^ (k - ((k - t).toNat : ℤ)) := by
    rw [twoPow_cast, ← zpow_add₀ two_ne_zero, add_sub_cancel]
  show ((n <<< (k - t).toNat : ℕ) : ℚ) * 2 ^ (k - ((k - t).toNat : ℤ)) = n * 2 ^ k
  rw [Nat.shiftLeft_eq, Nat.cast_mul, hpow, mul_assoc]
  rfl

theorem decreaseExponent_exponent (n : ℕ) (k t : ℤ) :
    (UnpackedFloat.decreaseExponent n k t).2 = min k t := by
  show k - ((k - t).toNat : ℤ) = min k t
  omega

/-- The same where bits may be missing, which are made up first. -/
theorem round_of_stored (s : Sign) (hstored : Stored m e) (hm : 0 < m) (hn : 0 < n)
    (h : (n : ℚ) * 2 ^ k = m * 2 ^ e) :
    UnpackedFloat.round .binary64 s n k = .finite s m e hm := by
  have htarget : Format.binary64.targetExponent (totalExponent n k) = e := by
    rw [totalExponent_of_scaled hn hm h, hstored.targetExponent hm]
  have hvalue := decreaseExponent_value n k e
  have hexponent := decreaseExponent_exponent n k e
  unfold UnpackedFloat.round
  rw [htarget]
  exact roundWithAccuracy_of_stored s hstored hm (hvalue.trans h)
    (hexponent.le.trans (min_le_right k e))

/-! ## Products -/

theorem signedValue_eq (s : Sign) (m : ℕ) (e : ℤ) :
    signedValue s m e = (s.apply 1 : ℤ) * (m * 2 ^ e) := by
  cases s <;> simp [signedValue, Sign.apply]

theorem signedValue_ne_zero (s : Sign) (hm : 0 < m) (e : ℤ) : signedValue s m e ≠ 0 := by
  have hpos : (0 : ℚ) < m * 2 ^ e := by positivity
  cases s <;> simp only [signedValue, Sign.apply, Int.cast_neg, Int.cast_natCast] <;> linarith

theorem signedValue_mul (s t : Sign) (m n : ℕ) (e k : ℤ) :
    signedValue s m e * signedValue t n k = signedValue (s * t) (m * n) (e + k) := by
  have hsign : (s * t).apply 1 = s.apply 1 * t.apply 1 := by cases s <;> cases t <;> rfl
  rw [signedValue_eq, signedValue_eq, signedValue_eq, hsign, zpow_add₀ two_ne_zero, Int.cast_mul,
    Nat.cast_mul]
  ring

/-- Two mantissas together have enough bits for their product. -/
theorem Stored.product_le {m' : ℕ} {e' : ℤ} (h : Stored m e) (h' : Stored m' e') (hm : 0 < m)
    (hm' : 0 < m') (hn : Stored n k)
    (hvalue : ((m * m' : ℕ) : ℚ) * 2 ^ (e + e') = n * 2 ^ k) : e + e' ≤ k := by
  by_contra hlt
  -- otherwise the product would have one bit more than can be stored
  have hmantissa := eq_mul_twoPow_of_scaled hvalue.symm (by omega)
  have htwo : twoPow 1 ≤ twoPow (e + e' - k).toNat := twoPow_le (by omega)
  have hproduct : m * m' * 2 ≤ n := by
    rw [hmantissa]
    exact Nat.mul_le_mul_left (m * m') htwo
  have hsucc : twoPow 53 = twoPow 52 * 2 := rfl
  have hbits := hn.mantissa_lt
  have hlow := hn.least_le
  rcases h.leading with hleading | hleading
  · have hle : m ≤ m * m' := Nat.le_mul_of_pos_right m hm'
    omega
  · rcases h'.leading with hleading' | hleading'
    · have hle : m' ≤ m * m' := Nat.le_mul_of_pos_left m' hm
      omega
    · omega

theorem unpack_pack_zero (s : Sign) : (Float.Model.pack (.zero s)).unpack = .zero s := by
  cases s <;> rfl

/-- **A product that can be stored is found exactly.** -/
theorem exactValue?_mul (hx : exactValue? x = some a) (hy : exactValue? y = some b)
    (h : Representable (a * b)) : exactValue? (x * y) = some (a * b) := by
  have hzero : ∀ s : Sign, UnpackedFloat.mul .binary64 x.toModel.unpack y.toModel.unpack = .zero s →
      exactValue? (x * y) = some 0 := by
    intro s hs
    have hunpack : (x * y).toModel.unpack = .zero s := by
      rw [float_mul_eq, hs]
      exact unpack_pack_zero s
    exact exactValue?_zero hunpack
  rcases exactValue?_cases hx with ⟨s, hu, rfl⟩ | ⟨s, m, e, hm, hu, hstored, rfl⟩
  · rw [zero_mul]
    rcases exactValue?_cases hy with ⟨t, hv, rfl⟩ | ⟨t, n, k, hn, hv, -, rfl⟩
    · exact hzero (s * t) (by rw [hu, hv]; rfl)
    · exact hzero (s * t) (by rw [hu, hv]; rfl)
  · rcases exactValue?_cases hy with ⟨t, hv, rfl⟩ | ⟨t, n, k, hn, hv, hstored', rfl⟩
    · rw [mul_zero]
      exact hzero (s * t) (by rw [hu, hv]; rfl)
    · rw [signedValue_mul] at h ⊢
      -- the exact product is `m * n` shifted by the sum of the exponents; it can be stored, so it
      -- is some `m'` of fewer bits and the rounding shifts out zeros only
      have hpos : 0 < m * n := Nat.mul_pos hm hn
      obtain ⟨s', m', e', hm', hresult, hvalue⟩ := h.exists_stored (signedValue_ne_zero _ hpos _)
      obtain ⟨rfl, hscaled⟩ := sign_of_signedValue hpos hm' hvalue
      have hle := hstored.product_le hstored' hm hn hresult hscaled
      have hunpack : (x * y).toModel.unpack = .finite (s * t) m' e' hm' := by
        rw [float_mul_eq, hu, hv, mul_finite,
          roundWithAccuracy_of_stored _ hresult hm' hscaled hle]
        exact unpack_pack_of_stored hm' hresult
      rw [hvalue]
      exact exactValue?_finite hunpack

/-! ## Sums -/

/-- What is put together for a number: the stored mantissa and exponent, or zero without a minus. -/
inductive Exactly : UnpackedFloat → ℚ → Prop where
  | zero : Exactly (.zero .positive) 0
  | finite (s : Sign) (m : ℕ) (e : ℤ) (h : 0 < m) (stored : Stored m e) :
      Exactly (.finite s m e h) (signedValue s m e)

/-- The floating-point number is just this rational number, and it is not negative zero. -/
def IsExactly (x : Float) (q : ℚ) : Prop := ∃ u, x = .ofModel (.pack u) ∧ Exactly u q

theorem isExactly_zero : IsExactly 0 0 := ⟨.zero .positive, rfl, .zero⟩

theorem Exactly.unpack_pack {u : UnpackedFloat} (h : Exactly u q) :
    (Float.Model.pack u).unpack = u := by
  cases h with
  | zero => exact unpack_pack_zero .positive
  | finite s m e h stored => exact unpack_pack_of_stored h stored

theorem IsExactly.value_eq (h : IsExactly x q) : exactValue? x = some q := by
  obtain ⟨u, rfl, hu⟩ := h
  have hunpack := hu.unpack_pack
  cases hu with
  | zero => exact exactValue?_zero hunpack
  | finite s m e h stored => exact exactValue?_finite hunpack

/-- **There is one such floating-point number.** -/
theorem IsExactly.unique (hx : IsExactly x q) (hy : IsExactly y q) : x = y := by
  obtain ⟨u, rfl, hu⟩ := hx
  obtain ⟨v, rfl, hv⟩ := hy
  -- zero is not a signed mantissa, and the sign and the stored bits of a mantissa are unique
  have huv : u = v := by
    generalize hq : q = q' at hv
    cases hu with
    | zero =>
        cases hv with
        | zero => rfl
        | finite s m e h stored => exact absurd hq.symm (signedValue_ne_zero s h e)
    | finite s m e h stored =>
        cases hv with
        | zero => exact absurd hq (signedValue_ne_zero s h e)
        | finite t n k h' stored' =>
            obtain ⟨rfl, hvalue⟩ := sign_of_signedValue h h' hq
            obtain ⟨rfl, rfl⟩ := stored.unique stored' h h' hvalue
            rfl
  rw [huv]

theorem float_add_eq (x y : Float) :
    x + y = .ofModel (.pack (.add .binary64 x.toModel.unpack y.toModel.unpack)) := rfl

theorem exactly_round (s : Sign) (hn : 0 < n) (h : Representable (signedValue s n k)) :
    Exactly (UnpackedFloat.round .binary64 s n k) (signedValue s n k) := by
  obtain ⟨s', m, e, hm, hstored, hvalue⟩ := h.exists_stored (signedValue_ne_zero s hn k)
  obtain ⟨rfl, hscaled⟩ := sign_of_signedValue hn hm hvalue
  rw [round_of_stored s hstored hm hn hscaled, hvalue]
  exact .finite s m e hm hstored

/-- An integral multiple of a power of two is rounded to itself, if it can be stored. -/
theorem exactly_normalize (z k : ℤ) (h : Representable (z * 2 ^ k)) :
    Exactly (UnpackedFloat.normalize .binary64 z k .positive) (z * 2 ^ k) := by
  -- the sign is split off first, and only a mantissa is rounded
  unfold UnpackedFloat.normalize
  split
  · rename_i hcompare
    have hneg : z < 0 := compare_lt_iff_lt.1 hcompare
    have hvalue : (z : ℚ) * 2 ^ k = signedValue .negative (-z).toNat k := by
      rw [signedValue, Sign.apply, Int.toNat_of_nonneg (by omega), neg_neg]
    rw [hvalue] at h ⊢
    exact exactly_round .negative (by omega) h
  · rename_i hcompare
    rw [compare_eq_iff_eq.1 hcompare, Int.cast_zero, zero_mul]
    exact .zero
  · rename_i hcompare
    have hpos : 0 < z := compare_gt_iff_gt.1 hcompare
    have hvalue : (z : ℚ) * 2 ^ k = signedValue .positive z.toNat k := by
      rw [signedValue, Sign.apply, Int.toNat_of_nonneg (by omega)]
    rw [hvalue] at h ⊢
    exact exactly_round .positive (by omega) h

/-- Two numbers are added as integral multiples of one power of two. -/
theorem signedValue_decreaseExponent (s : Sign) (m : ℕ) {e t : ℤ} (h : t ≤ e) :
    ((s.apply (UnpackedFloat.decreaseExponent m e t).1 : ℤ) : ℚ) * 2 ^ t = signedValue s m e := by
  have hvalue := decreaseExponent_value m e t
  have hexponent := decreaseExponent_exponent m e t
  rw [hexponent, min_eq_right h] at hvalue
  rw [signedValue_eq s m e, ← hvalue]
  exact signedValue_eq s _ t

/-- **A sum that can be stored is found exactly**, and it is not negative zero when the left summand
is not. -/
theorem IsExactly.add (hx : IsExactly x a) (hy : exactValue? y = some b)
    (h : Representable (a + b)) : IsExactly (x + y) (a + b) := by
  obtain ⟨u, rfl, hu⟩ := hx
  refine ⟨_, float_add_eq _ y, ?_⟩
  have hunpack : (Float.ofModel (.pack u)).toModel.unpack = u := hu.unpack_pack
  rw [hunpack]
  rcases exactValue?_cases hy with ⟨t, hv, rfl⟩ | ⟨t, n, k, hn, hv, hstored, rfl⟩
  · rw [hv, add_zero]
    cases hu with
    | zero => cases t <;> exact .zero
    | finite s m e hm stored => exact .finite s m e hm stored
  · rw [hv]
    cases hu with
    | zero =>
        rw [zero_add]
        exact .finite t n k hn hstored
    | finite s m e hm stored =>
        -- both summands are brought to the smaller of the exponents before they are added
        have hleft := signedValue_decreaseExponent s m (min_le_left e k)
        have hright := signedValue_decreaseExponent t n (min_le_right e k)
        rw [← hleft, ← hright, ← add_mul, ← Int.cast_add] at h ⊢
        exact exactly_normalize _ _ h

/-! ## Integers -/

theorem representable_zero : Representable 0 := ⟨0, isExactly_zero.value_eq⟩

theorem Stored.representable (s : Sign) (hm : 0 < m) (h : Stored m e) :
    Representable (signedValue s m e) :=
  ⟨.ofModel (.pack (.finite s m e hm)), IsExactly.value_eq ⟨_, rfl, .finite s m e hm h⟩⟩

/-- An integer of at most fifty-three bits is stored with zeros behind its bits. -/
theorem representable_signedValue_zero (s : Sign) (hn : 0 < n) (h : n < twoPow 53) :
    Representable (signedValue s n 0) := by
  have hlog : n.log2 < 53 := (Nat.log2_lt hn.ne').2 h
  -- the stored mantissa has fifty-three bits, so the integer is shifted until it has them
  have hmantissa : 0 < n * twoPow (52 - n.log2) := Nat.mul_pos hn (twoPow_pos _)
  have hbits : (n * twoPow (52 - n.log2)).log2 = 52 := by
    rw [log2_mul_twoPow hn]
    omega
  obtain ⟨hlow, hhigh⟩ := (Nat.log2_eq_iff hmantissa.ne').1 hbits
  have hstored : Stored (n * twoPow (52 - n.log2)) (-((52 - n.log2 : ℕ) : ℤ)) :=
    ⟨hhigh, by omega, by omega, .inl hlow⟩
  have hvalue : signedValue s (n * twoPow (52 - n.log2)) (-((52 - n.log2 : ℕ) : ℤ))
      = signedValue s n 0 := by
    rw [signedValue_eq, signedValue_eq, Nat.cast_mul, twoPow_cast, mul_assoc,
      ← zpow_add₀ two_ne_zero, add_neg_cancel]
  rw [← hvalue]
  exact hstored.representable s hmantissa

/-- **Integers of at most fifty-three bits can be stored.** -/
theorem representable_int {z : ℤ} (h : z.natAbs < twoPow 53) : Representable z := by
  rcases Nat.eq_zero_or_pos z.natAbs with hzero | hpos
  · rw [Int.natAbs_eq_zero.1 hzero, Int.cast_zero]
    exact representable_zero
  · obtain ⟨s, hs⟩ : ∃ s : Sign, s.apply z.natAbs = z := by
      rcases Int.natAbs_eq z with hz | hz
      · exact ⟨.positive, hz.symm⟩
      · exact ⟨.negative, hz.symm⟩
    have hvalue : (z : ℚ) = signedValue s z.natAbs 0 := by
      rw [signedValue, hs, zpow_zero, mul_one]
    rw [hvalue]
    exact representable_signedValue_zero s hpos h

end LinearCalc
