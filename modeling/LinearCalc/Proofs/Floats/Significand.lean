import LinearCalc.Proofs.Floats.Packing

set_option autoImplicit false

/-! # The significands of numbers

A positive number from `2^n` to `2^(n+1)` is `c · 2^(n-52)` with fifty-three bits `c`, of which the
first is one (`Significand`). All positive finite numbers are of this kind, the least ones too, for
which fewer of the bits are stored (`exists_significand`). Numbers are compared by `n` first and
then by `c` (`Significand.lt_iff`, `Significand.le_iff`).
-/

namespace LinearCalc

open Float.Model (UnpackedFloat Format)
open Float.Model.UnpackedFloat (Sign)

/-! ## Powers of two -/

theorem twoPow_add (a b : Nat) : twoPow (a + b) = twoPow a * twoPow b := Nat.pow_add 2 a b

theorem twoPow_le {a b : Nat} (h : a ≤ b) : twoPow a ≤ twoPow b :=
  Nat.pow_le_pow_right (by decide) h

theorem log2_mul_twoPow {m : Nat} (h : 0 < m) (k : Nat) :
    (m * twoPow k).log2 = m.log2 + k := by
  induction k with
  | zero => rw [twoPow_zero, Nat.mul_one, Nat.add_zero]
  | succ k ih =>
      have hpos : 0 < m * twoPow k := Nat.mul_pos h (twoPow_pos k)
      rw [twoPow_succ, ← Nat.mul_assoc, Nat.mul_comm _ 2, Nat.log2_two_mul (by omega), ih]
      omega

/-! ## Significands -/

/-- The exponent with which numbers from `2^n` to `2^(n+1)` are stored. -/
def storedExponent (n : Int) : Int := max (n - 52) (-1074)

/-- How many of the fifty-three bits of a number from `2^n` to `2^(n+1)` are zero and not stored,
because the number is so small. -/
def spareBits (n : Int) : Nat := (storedExponent n - (n - 52)).toNat

/-- A number that is large enough is stored with all its bits. -/
theorem storedExponent_of_le {n : Int} (h : -1022 ≤ n) : storedExponent n = n - 52 := by
  unfold storedExponent
  omega

theorem spareBits_of_le {n : Int} (h : -1022 ≤ n) : spareBits n = 0 := by
  rw [spareBits, storedExponent_of_le h, Int.sub_self, Int.toNat_zero]

/-- The number is `c · 2^(n-52)`, where `c` has fifty-three bits and the first of them is one. -/
structure Significand (x : Float) (n : Int) (c : Nat) : Prop where
  unpacked : ∃ m h, x.toModel.unpack = .finite .positive m (storedExponent n) h ∧
    m * twoPow (spareBits n) = c
  leading : twoPow 52 ≤ c
  lt : c < twoPow 53
  exponent_le : n ≤ 1023

variable {x y : Float} {n k : Int} {c d : Nat}

/-- Not all of the bits are spare. -/
theorem Significand.spareBits_le (h : Significand x n c) : spareBits n ≤ 52 := by
  obtain ⟨m, hpos, -, hm⟩ := h.unpacked
  have hlog := log2_mul_twoPow hpos (spareBits n)
  rw [hm, log2_of_leading h.leading h.lt] at hlog
  omega

/-- What is put together from a significand has it. -/
theorem significand_pack {m : Nat} (h : 0 < m) (hm : m * twoPow (spareBits n) = c)
    (hleading : twoPow 52 ≤ c) (hlt : c < twoPow 53) (hn : n ≤ 1023) :
    Significand (.ofModel (.pack (.finite .positive m (storedExponent n) h))) n c := by
  have hstored : Stored m (storedExponent n) := by
    have hle : m ≤ c := hm ▸ Nat.le_mul_of_pos_right m (twoPow_pos _)
    refine ⟨by omega, Int.le_max_right _ _, ?_, ?_⟩
    · unfold storedExponent
      omega
    · by_cases hspare : spareBits n = 0
      · rw [hspare, twoPow_zero, Nat.mul_one] at hm
        exact .inl (hm ▸ hleading)
      · right
        unfold spareBits storedExponent at hspare
        unfold storedExponent
        omega
  exact ⟨⟨m, h, unpack_pack_of_stored h hstored, hm⟩, hleading, hlt, hn⟩

/-- The bits of a mantissa are moved up until the first one of the fifty-three is one. -/
theorem significand_of_unpack {m : Nat} {e : Int} {h : 0 < m}
    (hx : x.toModel.unpack = .finite .positive m e h) :
    Significand x (m.log2 + e) (m * twoPow (52 - m.log2)) := by
  obtain ⟨hlt, hleast, hmost, hleading⟩ := stored_of_unpack hx
  have hlog : m.log2 ≤ 52 := by
    have := (Nat.log2_lt (by omega)).2 hlt
    omega
  have hexponent : storedExponent (m.log2 + e) = e := by
    unfold storedExponent
    rcases hleading with hlow | rfl
    · rw [log2_of_leading hlow hlt]
      omega
    · omega
  have hspare : spareBits (m.log2 + e) = 52 - m.log2 := by
    unfold spareBits
    omega
  -- moved up that far, the mantissa has all its bits
  have hscaled : (m * twoPow (52 - m.log2)).log2 = 52 := by
    rw [log2_mul_twoPow h]
    omega
  have hpos : 0 < m * twoPow (52 - m.log2) := Nat.mul_pos h (twoPow_pos _)
  obtain ⟨hlow, hhigh⟩ := (Nat.log2_eq_iff (by omega)).1 hscaled
  refine ⟨⟨m, h, by rw [hexponent, hx], by rw [hspare]⟩, hlow, hhigh, ?_⟩
  omega

theorem significand_one : Significand 1 0 (twoPow 52) :=
  ⟨⟨twoPow 52, by decide, rfl, rfl⟩, by decide, by decide, by decide⟩

theorem significand_two : Significand 2 1 (twoPow 52) :=
  ⟨⟨twoPow 52, by decide, rfl, rfl⟩, by decide, by decide, by decide⟩

/-! ## Order -/

/-- Where the exponents of two numbers differ, those which are stored differ too, or else the
mantissas. -/
theorem stored_lt {m l : Nat} (h : n < k) (hm : m * twoPow (spareBits n) = c)
    (hl : l * twoPow (spareBits k) = d) (hc : c < twoPow 53) (hd : twoPow 52 ≤ d) :
    storedExponent n < storedExponent k ∨ storedExponent n = storedExponent k ∧ m < l := by
  by_cases heq : storedExponent n = storedExponent k
  · refine .inr ⟨heq, Nat.lt_of_not_le (fun hle => ?_)⟩
    -- the smaller number has more spare bits
    have hspare : spareBits k + 1 ≤ spareBits n := by
      unfold spareBits storedExponent at *
      omega
    have hscaled : d * 2 ≤ c := by
      calc d * 2 = l * twoPow (spareBits k + 1) := by rw [twoPow_succ, ← Nat.mul_assoc, hl]
        _ ≤ m * twoPow (spareBits n) := Nat.mul_le_mul hle (twoPow_le hspare)
        _ = c := hm
    have hsucc : twoPow 53 = twoPow 52 * 2 := rfl
    omega
  · left
    unfold storedExponent at *
    omega

/-- **Numbers are compared by their exponents first, and then by their bits.** -/
theorem Significand.compare_eq (hx : Significand x n c) (hy : Significand y k d) :
    x.toModel.unpack.compare y.toModel.unpack = some ((compare n k).then (compare c d)) := by
  obtain ⟨m, hm0, hxu, hm⟩ := hx.unpacked
  obtain ⟨l, hl0, hyu, hl⟩ := hy.unpacked
  rw [hxu, hyu]
  refine congrArg some (?_ : (compare (storedExponent n) (storedExponent k)).then (compare m l) = _)
  rcases Int.lt_trichotomy n k with h | rfl | h
  · rw [Int.compare_eq_lt.2 h]
    rcases stored_lt h hm hl hx.lt hy.leading with hlt | ⟨heq, hlt⟩
    · rw [Int.compare_eq_lt.2 hlt]
      rfl
    · rw [Int.compare_eq_eq.2 heq, Nat.compare_eq_lt.2 hlt]
      rfl
  · -- with one exponent both have the same number of spare bits
    rw [Int.compare_eq_eq.2 rfl, Int.compare_eq_eq.2 rfl, ← hm, ← hl]
    show compare m l = compare (m * twoPow (spareBits n)) (l * twoPow (spareBits n))
    rw [Nat.compare_eq_ite_lt, Nat.compare_eq_ite_lt]
    simp only [Nat.mul_lt_mul_right (twoPow_pos _)]
  · rw [Int.compare_eq_gt.2 h]
    rcases stored_lt h hl hm hy.lt hx.leading with hlt | ⟨heq, hlt⟩
    · rw [Int.compare_eq_gt.2 hlt]
      rfl
    · rw [Int.compare_eq_eq.2 heq.symm, Nat.compare_eq_gt.2 hlt]
      rfl

theorem float_lt_iff (x y : Float) :
    x < y ↔ x.toModel.unpack.compare y.toModel.unpack = some .lt := by
  have hlt : x < y ↔ (x.toModel.unpack.compare y.toModel.unpack == some .lt) = true :=
    decide_eq_true_iff
  rw [hlt, beq_iff_eq]

theorem float_le_iff (x y : Float) :
    x ≤ y ↔ (x.toModel.unpack.compare y.toModel.unpack).any (·.isLE) = true :=
  decide_eq_true_iff

theorem Significand.lt_iff (hx : Significand x n c) (hy : Significand y k d) :
    x < y ↔ n < k ∨ n = k ∧ c < d := by
  rw [float_lt_iff, hx.compare_eq hy, Option.some.injEq, Ordering.then_eq_lt,
    Int.compare_eq_lt, Int.compare_eq_eq, Nat.compare_eq_lt]

theorem Significand.le_iff (hx : Significand x n c) (hy : Significand y k d) :
    x ≤ y ↔ n < k ∨ n = k ∧ c ≤ d := by
  rw [float_le_iff, hx.compare_eq hy, Option.any_some, Ordering.isLE_then_iff_or,
    Int.compare_eq_lt, Int.compare_eq_eq, Nat.isLE_compare]

theorem Significand.isFinite (hx : Significand x n c) : x.isFinite = true := by
  obtain ⟨m, hm0, hxu, -⟩ := hx.unpacked
  show x.toModel.unpack.isFinite = true
  rw [hxu]
  rfl

theorem unpack_zero : (0 : Float).toModel.unpack = .zero .positive := rfl

theorem Significand.not_le_zero (hx : Significand x n c) : ¬ x ≤ 0 := by
  obtain ⟨m, hm0, hxu, -⟩ := hx.unpacked
  rw [float_le_iff, hxu, unpack_zero]
  rintro ⟨⟩

/-- **Every positive finite number has a significand.** -/
theorem exists_significand (hfinite : x.isFinite = true) (hpos : 0 < x) :
    ∃ n c, Significand x n c := by
  have hunpacked : x.toModel.unpack.isFinite = true := hfinite
  rw [float_lt_iff, unpack_zero] at hpos
  -- finite leaves a zero and a mantissa, and positive only a mantissa without a minus
  cases hx : x.toModel.unpack with
  | notANumber =>
      rw [hx] at hunpacked
      cases hunpacked
  | infinity s =>
      rw [hx] at hunpacked
      cases hunpacked
  | zero s =>
      rw [hx] at hpos
      cases hpos
  | finite s m e h =>
      cases s with
      | negative =>
          rw [hx] at hpos
          cases hpos
      | positive => exact ⟨_, _, significand_of_unpack hx⟩

end LinearCalc
