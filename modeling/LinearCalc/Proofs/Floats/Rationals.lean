import LinearCalc.Proofs.Floats.Scaling
import Mathlib.Algebra.Order.Field.Power
import Mathlib.Algebra.Order.Ring.Rat
import Mathlib.Tactic.Linarith
import Mathlib.Tactic.NormNum
import Mathlib.Tactic.Positivity
import Mathlib.Tactic.Ring

set_option autoImplicit false

/-! # The rational numbers that are stored

A finite floating-point number is a rational number (`Binary64.toRat?`). Significands say which
(`Significand.toRat?_eq`), and the order of the numbers is that of the rational numbers
(`scaled_le_scaled_iff`).
-/

namespace LinearCalc

def Binary64.toRat? : Binary64 → Option ℚ
  | finite negative m q => some (signed negative m * 2 ^ q)
  | _ => none

variable {x y : Float} {n k : ℤ} {c d : ℕ}

theorem twoPow_cast (a : ℕ) : (twoPow a : ℚ) = 2 ^ (a : ℤ) := by
  induction a with
  | zero => norm_num
  | succ a ih =>
      rw [twoPow_succ, Nat.cast_mul, ih, Nat.cast_ofNat, Nat.cast_succ, zpow_add_one₀ two_ne_zero]

/-- The number `c · 2^(n-52)`. -/
def scaled (c : ℕ) (n : ℤ) : ℚ := c * 2 ^ (n - 52)

theorem scaled_pos (hc : twoPow 52 ≤ c) : 0 < scaled c n := by
  have hpos : 0 < c := Nat.lt_of_lt_of_le (twoPow_pos 52) hc
  unfold scaled
  positivity

/-- A power of two moves the exponent. -/
theorem zpow_mul_scaled (k : ℤ) : 2 ^ k * scaled c n = scaled c (n + k) := by
  have hexponent : n + k - 52 = k + (n - 52) := by ring
  unfold scaled
  rw [hexponent, zpow_add₀ two_ne_zero]
  ring

theorem scaled_twoPow (k : ℤ) : scaled (twoPow 52) k = 2 ^ k := by
  have hexponent : k = ((52 : ℕ) : ℤ) + (k - 52) := by
    rw [Nat.cast_ofNat]
    ring
  unfold scaled
  rw [twoPow_cast, ← zpow_add₀ two_ne_zero, ← hexponent]

/-- A number with a smaller exponent is smaller, whatever its bits are. -/
theorem scaled_lt_of_lt (hc : c < twoPow 53) (hd : twoPow 52 ≤ d) (h : n < k) :
    scaled c n < scaled d k := by
  have hlt : (c : ℚ) < twoPow 53 := by exact_mod_cast hc
  have hle : (twoPow 52 : ℚ) ≤ d := by exact_mod_cast hd
  have hpow : (0 : ℚ) < 2 ^ (n - 52) := by positivity
  have hexponent : n - 52 + ((53 : ℕ) : ℤ) ≤ k - 52 + ((52 : ℕ) : ℤ) := by
    rw [Nat.cast_ofNat, Nat.cast_ofNat]
    linarith
  unfold scaled
  calc (c : ℚ) * 2 ^ (n - 52) < twoPow 53 * 2 ^ (n - 52) := mul_lt_mul_of_pos_right hlt hpow
    _ = 2 ^ (n - 52 + ((53 : ℕ) : ℤ)) := by rw [twoPow_cast, mul_comm, zpow_add₀ two_ne_zero]
    _ ≤ 2 ^ (k - 52 + ((52 : ℕ) : ℤ)) := zpow_le_zpow_right₀ one_le_two hexponent
    _ = twoPow 52 * 2 ^ (k - 52) := by rw [twoPow_cast, mul_comm, zpow_add₀ two_ne_zero]
    _ ≤ d * 2 ^ (k - 52) := mul_le_mul_of_nonneg_right hle (by positivity)

theorem scaled_le_scaled_iff (hc : twoPow 52 ≤ c) (hc' : c < twoPow 53) (hd : twoPow 52 ≤ d)
    (hd' : d < twoPow 53) : scaled c n ≤ scaled d k ↔ n < k ∨ n = k ∧ c ≤ d := by
  rcases lt_trichotomy n k with h | rfl | h
  · simp only [h, true_or, iff_true]
    exact (scaled_lt_of_lt hc' hd h).le
  · have hpow : (0 : ℚ) < 2 ^ (n - 52) := by positivity
    simp only [scaled, mul_le_mul_iff_left₀ hpow, Nat.cast_le, lt_irrefl, false_or, true_and]
  · have hlt := scaled_lt_of_lt hd' hc h
    simp only [not_le.2 hlt, not_lt.2 h.le, h.ne', false_and, or_self]

/-- **The rational number of a significand.** -/
theorem Significand.toRat?_eq (h : Significand x n c) :
    (Binary64.ofFloat x).toRat? = some (scaled c n) := by
  obtain ⟨m, hpos, hu, rfl⟩ := h.unpacked
  have hexponent : storedExponent n = (spareBits n : ℤ) + (n - 52) := by
    unfold spareBits storedExponent
    omega
  rw [Binary64.ofFloat_eq, hu]
  show some (((m : ℤ) : ℚ) * 2 ^ storedExponent n)
    = some (((m * twoPow (spareBits n) : ℕ) : ℚ) * 2 ^ (n - 52))
  rw [hexponent, zpow_add₀ two_ne_zero, Nat.cast_mul, twoPow_cast, Int.cast_natCast, mul_assoc]

theorem IsPower.toRat?_eq (h : IsPower x k) : (Binary64.ofFloat x).toRat? = some (2 ^ k) := by
  rw [h.significand.toRat?_eq, scaled_twoPow]

end LinearCalc
