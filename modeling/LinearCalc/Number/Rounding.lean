set_option autoImplicit false

/-! # Scales and rounded quotients

The powers of two and of ten, which are the scales on which numbers are read, rounded and written,
and quotients of natural numbers rounded to the nearest natural number. A tie, which is a remainder
of exactly one half, goes to the even neighbour.
-/

namespace LinearCalc

/-! ## Powers of two and of ten -/

def twoPow (n : Nat) : Nat := Nat.pow 2 n

def tenPow (n : Nat) : Nat := Nat.pow 10 n

@[simp] theorem twoPow_zero : twoPow 0 = 1 := rfl

theorem twoPow_succ (n : Nat) : twoPow (n + 1) = twoPow n * 2 := rfl

theorem twoPow_pos (n : Nat) : 0 < twoPow n := by
  induction n with
  | zero => decide
  | succ n ih => rw [twoPow_succ]; omega

/-! ## Rounded quotients -/

/-- The natural number nearest to `num / den`, the even one of two equally near. -/
def roundDiv (num den : Nat) : Nat :=
  let q := num / den
  let r := num % den
  if 2 * r < den then q
  else if den < 2 * r then q + 1
  else q + q % 2

/-- The rounded quotient is at most half a unit above the quotient. -/
theorem roundDiv_mul_le (num den : Nat) :
    2 * (roundDiv num den * den) ≤ 2 * num + den := by
  have h := Nat.div_add_mod num den
  have hm : den * (num / den) = num / den * den := Nat.mul_comm _ _
  unfold roundDiv
  dsimp only
  split
  · omega
  · split
    · rw [Nat.add_mul]; omega
    · have : num / den % 2 = 0 ∨ num / den % 2 = 1 := by omega
      rcases this with h0 | h1
      · rw [h0]; simp; omega
      · rw [h1, Nat.add_mul]; omega

/-- The rounded quotient is at most half a unit below the quotient. -/
theorem le_roundDiv_mul (num den : Nat) (hden : 0 < den) :
    2 * num ≤ 2 * (roundDiv num den * den) + den := by
  have h := Nat.div_add_mod num den
  have hlt := Nat.mod_lt num hden
  have hm : den * (num / den) = num / den * den := Nat.mul_comm _ _
  unfold roundDiv
  dsimp only
  split
  · omega
  · split
    · rw [Nat.add_mul]; omega
    · have : num / den % 2 = 0 ∨ num / den % 2 = 1 := by omega
      rcases this with h0 | h1
      · rw [h0]; simp; omega
      · rw [h1, Nat.add_mul]; omega

end LinearCalc
