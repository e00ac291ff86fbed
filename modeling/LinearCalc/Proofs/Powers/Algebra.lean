import LinearCalc.Proofs.Products.Values
import Mathlib.Algebra.BigOperators.Fin
import Mathlib.Data.Matrix.Mul

set_option autoImplicit false

/-! # Powers over a ring

Where the laws of a semiring hold for the cells, square grids are matrices and the product of grids
is the product of matrices (`toMatrix_mul`). The matrix that repeated squaring finds is the power:
`result · square^n` is the same in every round (`toMatrix_powBits`). So the power is the product of
equal factors from left to right (`pow_eq_chain`), and exponents add up (`pow_mul_pow`).
-/

namespace LinearCalc

/-! ## Chains and rounds -/

section Rounds

variable {α : Type} [Add α] [Mul α] [Zero α]

/-- The product `a * a * … * a` from left to right, with `n` operators. -/
def Grid.chain (a : Grid α) : Nat → Grid α
  | 0 => a
  | n + 1 => (chain a n).mul a

theorem Rect.chain {k : Nat} {a : Grid α} (ha : Rect k k a) (hk : 0 < k) (n : Nat) :
    Rect k k (a.chain n) := by
  induction n with
  | zero => exact ha
  | succ n ih => exact ih.mul ha hk

namespace Grid

theorem powBits_zero (result : Option (Grid α)) (square : Grid α) :
    powBits result square 0 = result := by
  rw [powBits, if_pos rfl]

/-- In a round for the digit zero, there is only a new square. -/
theorem powBits_even {n : Nat} (hn : 0 < n) (heven : n % 2 = 0) (result : Option (Grid α))
    (square : Grid α) :
    powBits result square n = powBits result (square.mul square) (n / 2) := by
  rw [powBits, if_neg hn.ne', if_neg (by omega)]

/-- In a round for the digit one, the square is multiplied into the result, or becomes it. -/
theorem powBits_odd {n : Nat} (hodd : n % 2 = 1) (result : Option (Grid α)) (square : Grid α) :
    powBits result square n
      = powBits (some ((result.map (fun r => r.mul square)).getD square)) (square.mul square)
          (n / 2) := by
  rw [powBits, if_neg (by omega), if_pos hodd]

@[simp] theorem pow_of_one (a : Grid α) : a.pow 1 = a := by
  have hbits : powBits none a 1 = some a := by
    rw [powBits_odd rfl, powBits_zero, Option.map_none, Option.getD_none]
  rw [pow, hbits, Option.getD_some]
  all_goals decide

end Grid
end Rounds

namespace Grid

variable {R : Type} [Semiring R] {k : Nat} {a b : Grid R}

/-! ## Grids as matrices -/

def toMatrix (k : Nat) (a : Grid R) : Matrix (Fin k) (Fin k) R :=
  fun i j => (elementAt a i j).getD 0

/-- A square grid is known by its matrix. -/
theorem toMatrix_injective (ha : Rect k k a) (hb : Rect k k b) (h : toMatrix k a = toMatrix k b) :
    a = b := by
  refine ha.eq_of_elements hb (fun i j c c' hc hc' => ?_)
  obtain ⟨hi, hj⟩ := ha.lt_of_elementAt hc
  have hcell := congrFun (congrFun h ⟨i, hi⟩) ⟨j, hj⟩
  simp only [toMatrix, hc, hc', Option.getD_some] at hcell
  exact hcell

/-- A dot product is a sum over the positions. -/
theorem dot_eq_sum {u v : List R} (hu : u.length = k) (hv : v.length = k) :
    dot u v = ∑ l : Fin k, u[l]?.getD 0 * v[l]?.getD 0 := by
  have hproducts : List.zipWith (· * ·) u v
      = List.ofFn (fun l : Fin k => u[l]?.getD 0 * v[l]?.getD 0) := by
    refine List.ext_getElem (by simp [hu, hv]) (fun l hl hl' => ?_)
    simp [hu, hv]
  rw [dot, hproducts, ← List.sum_eq_foldl, List.sum_ofFn]

/-- **The product of grids is the product of matrices.** -/
theorem toMatrix_mul (ha : Rect k k a) (hb : Rect k k b) :
    toMatrix k (a.mul b) = toMatrix k a * toMatrix k b := by
  ext i j
  have hk : 0 < k := i.pos
  have hcolumn : (columnAt b j).length = k := by
    rw [← rowAt_transpose hb hk j.2, length_rowAt (hb.transpose hk) j.2]
  rw [toMatrix, elementAt_mul_eq ha hb hk i.2 j.2, Option.getD_some,
    dot_eq_sum (length_rowAt ha i.2) hcolumn, Matrix.mul_apply]
  refine Finset.sum_congr rfl (fun l _ => ?_)
  have hleft : (rowAt a i)[l]? = elementAt a i l := by
    rw [elementAt, getElem?_eq_rowAt ha i.2, Option.bind_some]
    rfl
  have hright : (columnAt b j)[l]? = elementAt b l j := getElem?_columnAt hb hk j.2 l
  rw [hleft, hright, toMatrix, toMatrix]

/-! ## Powers -/

theorem toMatrix_chain (ha : Rect k k a) (hk : 0 < k) (n : Nat) :
    toMatrix k (a.chain n) = toMatrix k a ^ (n + 1) := by
  induction n with
  | zero => exact (pow_one _).symm
  | succ n ih => rw [chain, toMatrix_mul (ha.chain hk n) ha, ih, ← pow_succ]

/-- **Repeated squaring**: what has been multiplied together, times the power of the square that is
still to come, stays the same from round to round. -/
theorem toMatrix_powBits (hk : 0 < k) {result : Option (Grid R)} {square : Grid R} {n : Nat}
    (hresult : ∀ r ∈ result, Rect k k r) (hsquare : Rect k k square)
    (hsome : n = 0 → result.isSome = true) :
    ∃ r, powBits result square n = some r ∧
      toMatrix k r = (result.map (toMatrix k)).getD 1 * toMatrix k square ^ n := by
  -- a round halves the exponent, so the induction is a strong one; what is multiplied and what is
  -- squared change with it
  induction n using Nat.strongRecOn generalizing result square with
  | ind n ih =>
      rcases Nat.eq_zero_or_pos n with rfl | hpos
      · obtain ⟨r, rfl⟩ := Option.isSome_iff_exists.1 (hsome rfl)
        refine ⟨r, powBits_zero _ _, ?_⟩
        rw [Option.map_some, Option.getD_some, pow_zero, mul_one]
      have hrect := hsquare.mul hsquare hk
      have hpower : toMatrix k square ^ (n % 2) * toMatrix k (square.mul square) ^ (n / 2)
          = toMatrix k square ^ n := by
        rw [toMatrix_mul hsquare hsquare, ← sq, ← pow_mul, ← pow_add, Nat.mod_add_div]
      rcases Nat.mod_two_eq_zero_or_one n with heven | hodd
      · rw [heven, pow_zero, one_mul] at hpower
        rw [powBits_even hpos heven, ← hpower]
        exact ih (n / 2) (by omega) hresult hrect (by omega)
      · rw [hodd, pow_one] at hpower
        rw [powBits_odd hodd, ← hpower, ← mul_assoc]
        -- the first factor is taken as it is: there is no identity matrix among the grids to begin
        -- with
        cases result with
        | none =>
            simp only [Option.map_none, Option.getD_none, one_mul]
            exact ih (n / 2) (by omega) (by simpa using hsquare) hrect (fun _ => rfl)
        | some r =>
            have hr : Rect k k r := hresult r rfl
            simp only [Option.map_some, Option.getD_some, ← toMatrix_mul hr hsquare]
            exact ih (n / 2) (by omega) (by simpa using hr.mul hsquare hk) hrect (fun _ => rfl)

/-- **The power of a grid is the power of the matrix.** -/
theorem toMatrix_pow (ha : Rect k k a) (hk : 0 < k) {n : Nat} (hn : 0 < n) :
    toMatrix k (a.pow n) = toMatrix k a ^ n := by
  have hsquare := toMatrix_mul ha ha
  have hnothing : ∀ r ∈ (none : Option (Grid R)), Rect k k r := by
    rintro r ⟨⟩
  unfold pow
  split
  · rw [hsquare, sq]
  · rw [toMatrix_mul (ha.mul ha hk) ha, hsquare, pow_succ, sq]
  · obtain ⟨r, hr, hmatrix⟩ :=
      toMatrix_powBits hk hnothing ha (fun hzero => absurd hzero hn.ne')
    rw [hr, Option.getD_some, hmatrix, Option.map_none, Option.getD_none, one_mul]

/-- **The power is the product of equal factors**, from left to right. -/
theorem pow_eq_chain (ha : Rect k k a) (hk : 0 < k) (n : Nat) : a.pow (n + 1) = a.chain n := by
  refine toMatrix_injective (ha.pow hk (n + 1)) (ha.chain hk n) ?_
  rw [toMatrix_pow ha hk n.succ_pos, toMatrix_chain ha hk n]

/-- **Exponents add up.** -/
theorem pow_mul_pow (ha : Rect k k a) (hk : 0 < k) {m n : Nat} (hm : 0 < m) (hn : 0 < n) :
    (a.pow m).mul (a.pow n) = a.pow (m + n) := by
  have hleft := ha.pow hk m
  have hright := ha.pow hk n
  refine toMatrix_injective (hleft.mul hright hk) (ha.pow hk (m + n)) ?_
  rw [toMatrix_mul hleft hright, toMatrix_pow ha hk hm, toMatrix_pow ha hk hn,
    toMatrix_pow ha hk (by omega), pow_add]

end Grid
end LinearCalc
