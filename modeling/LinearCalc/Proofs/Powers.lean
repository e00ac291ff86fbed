import LinearCalc.Proofs.Cellwise
import LinearCalc.Proofs.Powers.Tracking

set_option autoImplicit false

/-! # Powers of matrices

The power of a square matrix is computed by repeated squaring. Where the arithmetic of the cells is
exact, its result has the numbers that one gets by typing the matrix as often as the exponent says,
with multiplication signs in between; and multiplying two powers adds up their exponents
(`power_is_repeated_product`). The arithmetic is exact if it is that of a ring, or if every
floating-point number that comes up on the two ways is found without rounding, as integers are
that stay short enough (`Short.allExact_of_allShort`).
-/

namespace LinearCalc

variable {α : Type} [Scalar α]

/-! ## Values -/

namespace Value

variable {rows : List (List (Value α))} {cells : Grid α} {k n : Nat} {x : α}

/-- A computed matrix of numbers has these numbers. -/
theorem numbers?_of_numberCells (h : NumberCells cells) (left : Value α) :
    ((Computed.ofGrid cells).value left).numbers? = some cells := by
  rw [numbers?_ofGrid, numbers?, mapM_rows_eq_some_iff, Grid.map, List.map_map]
  refine List.map_congr_left (fun row hrow => ?_)
  rw [Function.comp_apply, List.map_map]
  refine List.map_congr_left (fun v hv => ?_)
  rw [Function.comp_apply, number?, h row hrow v hv]
  rfl

/-- A square matrix of numbers takes a positive integer as its exponent. -/
theorem matrixExponent?_of_numbers (h : (matrix rows).numbers? = some cells)
    (hcells : Rect k k cells) (hk : 0 < k) (hx : Scalar.toInt? x = some (n : ℤ)) (hn : 1 ≤ n) :
    matrixExponent? rows x = some n := by
  have hrows := congrArg shape ((mapM_rows_eq_some_iff number? rows cells).1 h)
  rw [shape_map, shape_map, hcells.shape_eq hk] at hrows
  obtain ⟨i, rfl⟩ : ∃ i, n = i + 1 := ⟨n - 1, by omega⟩
  rw [matrixExponent?, hrows, if_pos rfl, hx]

/-- **The numbers of a power.** -/
theorem numbers?_power (h : (matrix rows).numbers? = some cells) (hcells : Rect k k cells)
    (hk : 0 < k) (hx : Scalar.toInt? x = some (n : ℤ)) (hn : 1 ≤ n)
    (hpow : NumberCells (cells.pow n)) :
    (((matrix rows).power (scalar x)).value (matrix rows)).numbers? = some (cells.pow n) := by
  unfold power
  simp only [matrixExponent?_of_numbers h hcells hk hx hn, h]
  by_cases hone : n = 1
  · -- the matrix is left as it is, and so are the elements that were typed
    subst hone
    rw [if_pos rfl, Grid.pow_of_one]
    exact h
  · rw [if_neg hone]
    exact numbers?_of_numberCells hpow _

end Value

namespace Expr

/-! ## Expressions -/

/-- The expression evaluates to a matrix with these numbers, wherever it stands in a text. -/
def HasNumbers (e : Expr α) (cells : Grid α) : Prop :=
  ∀ e' : Expr α, e'.erase = e.erase → e'.simplify.numbers? = some cells

/-- The expression evaluates to the positive integer `n`. -/
def IsExponent (e : Expr α) (n : Nat) : Prop :=
  e.symbol? = none ∧ ∃ x s, e.simplify = number x s ∧ Scalar.toInt? x = some (n : ℤ)

/-- The product of two expressions, without places. -/
def times (left right : Expr α) : Expr α := binary .mul .nowhere left right .nowhere

def toThe (base exponent : Expr α) : Expr α := binary .pow .nowhere base exponent .nowhere

/-- The expression `e * e * … * e` with `n` signs, which is read from left to right. -/
def repeated (e : Expr α) : Nat → Expr α
  | 0 => e
  | n + 1 => times (repeated e n) e

/-- The power `e ^ n` and the product of `n` factors `e` have the same numbers. -/
def PowerIsProduct (e : Expr α) (n : Nat) : Prop :=
  ∀ t, IsExponent t n →
    ∃ cells, HasNumbers (e.toThe t) cells ∧ HasNumbers (e.repeated (n - 1)) cells

/-- The product `e ^ m * e ^ n` and the power `e ^ (m + n)` have the same numbers. -/
def ExponentsAdd (e : Expr α) (m n : Nat) : Prop :=
  ∀ t u w, IsExponent t m → IsExponent u n → IsExponent w (m + n) →
    ∃ cells, HasNumbers (times (e.toThe t) (e.toThe u)) cells ∧ HasNumbers (e.toThe w) cells

variable {e e' t : Expr α} {a b cells : Grid α} {k m n : Nat}

theorem hasNumbers_iff : HasNumbers e cells ↔ e.value.numbers? = some cells := by
  constructor
  · intro h
    rw [← numbers?_simplify]
    exact h e rfl
  · intro h e' he
    rw [numbers?_simplify, value_eq_of_erase_eq he, h]

/-- What has numbers is a matrix. -/
theorem HasNumbers.exists_rows (h : HasNumbers e cells) :
    ∃ rows, e.value = .matrix rows ∧ (Value.matrix rows).numbers? = some cells := by
  rw [hasNumbers_iff] at h
  cases hvalue : e.value with
  | scalar v =>
      rw [hvalue] at h
      cases h
  | matrix rows =>
      rw [hvalue] at h
      exact ⟨rows, rfl, h⟩

/-- What has numbers is not empty, so that a square has rows. -/
theorem HasNumbers.rect (h : HasNumbers e cells) (hshape : shape cells = (k, k)) :
    Rect k k cells ∧ 0 < k := by
  obtain ⟨m, n, hm, -, hrect⟩ := (value_rectangular e).numbers (hasNumbers_iff.1 h)
  rw [hrect.shape_eq hm] at hshape
  obtain ⟨rfl, rfl⟩ := Prod.mk.inj hshape
  exact ⟨hrect, hm⟩

/-- **The numbers of a product.** -/
theorem HasNumbers.times (h : HasNumbers e a) (h' : HasNumbers e' b) (ha : Rect k k a)
    (hb : Rect k k b) (hk : 0 < k) (hproduct : NumberCells (a.mul b)) :
    HasNumbers (times e e') (a.mul b) := by
  obtain ⟨rows, hvalue, hx⟩ := h.exists_rows
  obtain ⟨rows', hvalue', hy⟩ := h'.exists_rows
  have hfits : (shape a).2 = (shape b).1 := by rw [ha.shape_eq hk, hb.shape_eq hk]
  have hmultiply : Operator.mul.apply (.matrix rows) (.matrix rows') = .ofGrid (a.mul b) :=
    Value.multiply_of_fits hx hy hfits
  rw [hasNumbers_iff, Expr.times, value_binary (fun hop => by cases hop), hvalue, hvalue',
    hmultiply]
  exact Value.numbers?_of_numberCells hproduct _

/-- **The numbers of a power.** -/
theorem HasNumbers.toThe (h : HasNumbers e cells) (hcells : Rect k k cells) (hk : 0 < k)
    (ht : IsExponent t n) (hn : 1 ≤ n) (hpow : NumberCells (cells.pow n)) :
    HasNumbers (e.toThe t) (cells.pow n) := by
  obtain ⟨rows, hvalue, hx⟩ := h.exists_rows
  obtain ⟨hsymbol, x, s, hresult, hint⟩ := ht
  have hexponent : t.value = .scalar x := by rw [← value_simplify, hresult, value]
  rw [hasNumbers_iff, Expr.toThe, value_binary (fun _ => hsymbol), hvalue, hexponent]
  exact Value.numbers?_power hx hcells hk hint hn hpow

/-- **The numbers of a repeated product.** -/
theorem HasNumbers.repeated (h : HasNumbers e cells) (hcells : Rect k k cells) (hk : 0 < k)
    (hchain : ∀ i ≤ n, NumberCells (cells.chain i)) :
    HasNumbers (e.repeated n) (cells.chain n) := by
  induction n with
  | zero => exact h
  | succ n ih =>
      have hprevious := ih (fun i hi => hchain i (by omega))
      exact hprevious.times h (hcells.chain hk n) hcells hk (hchain (n + 1) (le_refl _))

theorem powerIsProduct_of_eq (h : HasNumbers e cells) (hcells : Rect k k cells) (hk : 0 < k)
    (hn : 1 ≤ n) (hchain : ∀ i ≤ n - 1, NumberCells (cells.chain i))
    (heq : cells.pow n = cells.chain (n - 1)) : PowerIsProduct e n := by
  intro t ht
  have hpow : NumberCells (cells.pow n) := by
    rw [heq]
    exact hchain (n - 1) (le_refl _)
  refine ⟨cells.pow n, h.toThe hcells hk ht hn hpow, ?_⟩
  rw [heq]
  exact h.repeated hcells hk hchain

theorem exponentsAdd_of_eq (h : HasNumbers e cells) (hcells : Rect k k cells) (hk : 0 < k)
    (hm : 1 ≤ m) (hn : 1 ≤ n) (hleft : NumberCells (cells.pow m))
    (hright : NumberCells (cells.pow n)) (hpow : NumberCells (cells.pow (m + n)))
    (heq : (cells.pow m).mul (cells.pow n) = cells.pow (m + n)) : ExponentsAdd e m n := by
  intro t u w ht hu hw
  refine ⟨cells.pow (m + n), ?_, h.toThe hcells hk hw (by omega) hpow⟩
  rw [← heq] at hpow ⊢
  exact (h.toThe hcells hk ht hm hleft).times (h.toThe hcells hk hu hn hright)
    (hcells.pow hk m) (hcells.pow hk n) hk hpow

/-- Over a ring the numbers are found exactly, and there is nothing that is not a number. -/
theorem powers_over_ring {R : Type} [Ring R] {f : R → α} (hf : Keeps f)
    (hnumber : ∀ r, Scalar.isNaN (f r) = false) {a : Grid R} (h : HasNumbers e (a.map f))
    (ha : Rect k k a) (hk : 0 < k) :
    (∀ n ≥ 2, PowerIsProduct e n) ∧ ∀ m ≥ 1, ∀ n ≥ 1, ExponentsAdd e m n := by
  have hcells : Rect k k (a.map f) := ha.map f
  -- every grid that comes from the ring has only numbers, so only the equations are left
  have hnumbers : ∀ b : Grid R, NumberCells (b.map f) := by
    intro b row hrow v hv
    obtain ⟨row', -, rfl⟩ := List.mem_map.1 hrow
    obtain ⟨r, -, rfl⟩ := List.mem_map.1 hv
    exact hnumber r
  refine ⟨fun n hn => ?_, fun m hm n hn => ?_⟩
  · refine powerIsProduct_of_eq h hcells hk (by omega) (fun i _ => ?_) ?_
    · rw [← hf.map_chain]
      exact hnumbers _
    · obtain ⟨i, rfl⟩ : ∃ i, n = i + 1 := ⟨n - 1, by omega⟩
      rw [← hf.map_pow a (by omega), Grid.pow_eq_chain ha hk, hf.map_chain, Nat.add_sub_cancel]
  · refine exponentsAdd_of_eq h hcells hk hm hn ?_ ?_ ?_ ?_
    · rw [← hf.map_pow a hm]
      exact hnumbers _
    · rw [← hf.map_pow a hn]
      exact hnumbers _
    · rw [← hf.map_pow a (by omega)]
      exact hnumbers _
    · rw [← hf.map_pow a hm, ← hf.map_pow a hn, ← hf.map_mul, Grid.pow_mul_pow ha hk hm hn,
        hf.map_pow a (by omega)]

open Tracked (AllExact)

theorem powerIsProduct_of_exact {e : Expr Float} {cells : Grid Float} (h : HasNumbers e cells)
    (hcells : Rect k k cells) (hk : 0 < k) (hn : 2 ≤ n)
    (hpow : AllExact ((cells.map Tracked.of).pow n))
    (hchain : AllExact ((cells.map Tracked.of).chain (n - 1))) : PowerIsProduct e n := by
  have htracked : Rect k k (cells.map Tracked.of) := hcells.map Tracked.of
  refine powerIsProduct_of_eq h hcells hk (by omega) (fun i hi => ?_)
    (Tracked.pow_eq_chain hcells hk hn hpow hchain)
  -- the parts of the product are matrices of numbers, because they were found exactly too
  exact Tracked.numberCells_of_exact (Tracked.inStep_float.chain_weak (Tracked.related_of cells) i)
    (Tracked.allExact_chain_of_le htracked hk hi hchain)

theorem exponentsAdd_of_exact {e : Expr Float} {cells : Grid Float} (h : HasNumbers e cells)
    (hcells : Rect k k cells) (hk : 0 < k) (hm : 1 ≤ m) (hn : 1 ≤ n)
    (hproduct : AllExact (((cells.map Tracked.of).pow m).mul ((cells.map Tracked.of).pow n)))
    (hpow : AllExact ((cells.map Tracked.of).pow (m + n))) : ExponentsAdd e m n := by
  have htracked : Rect k k (cells.map Tracked.of) := hcells.map Tracked.of
  have hnumbers : ∀ i ≥ 1, AllExact ((cells.map Tracked.of).pow i) → NumberCells (cells.pow i) :=
    fun i hi => Tracked.numberCells_of_exact
      (Tracked.inStep_float.pow_weak (Tracked.related_of cells) hi)
  obtain ⟨hleft, hright⟩ :=
    Tracked.allExact_factors (htracked.pow hk m) (htracked.pow hk n) hk hk hk hproduct
  exact exponentsAdd_of_eq h hcells hk hm hn (hnumbers m hm hleft) (hnumbers n hn hright)
    (hnumbers (m + n) (by omega) hpow) (Tracked.pow_mul_pow hcells hk hm hn hproduct hpow)

/-- **The power of a square matrix of numbers is the product of equal factors**, from left to right,
and exponents add up: for cells in a ring whose operations they keep to; and for floating-point
cells where all numbers on the two ways can be stored. A power is found by squaring, in another
order than the product from left to right. In a ring the order does not matter; with rounding it
does, and what is asked of the `tracked` cells is that nothing is rounded on either way. -/
theorem power_is_repeated_product :
    (∀ {R α : Type} [Ring R] [Scalar α] (f : R → α), Keeps f → (∀ r, Scalar.isNaN (f r) = false) →
      ∀ (e : Expr α) (a : Grid R) (k : Nat), HasNumbers e (a.map f) → shape a = (k, k) →
        (∀ n ≥ 2, PowerIsProduct e n) ∧ ∀ m ≥ 1, ∀ n ≥ 1, ExponentsAdd e m n) ∧
    ∀ (e : Expr Float) (cells : Grid Float) (k : Nat) (tracked : Grid Tracked),
      HasNumbers e cells → shape cells = (k, k) → tracked = cells.map Tracked.of →
        (∀ n ≥ 2, AllExact (tracked.pow n) → AllExact (tracked.chain (n - 1)) →
          PowerIsProduct e n) ∧
        ∀ m ≥ 1, ∀ n ≥ 1, AllExact ((tracked.pow m).mul (tracked.pow n)) →
          AllExact (tracked.pow (m + n)) → ExponentsAdd e m n := by
  refine ⟨?ring, ?exact⟩
  case ring =>
    intro R α _ _ f hf hnumber e a k h hshape
    have hshape' : shape (a.map f) = (k, k) := (shape_map f a).trans hshape
    obtain ⟨hcells, hk⟩ := h.rect hshape'
    exact powers_over_ring hf hnumber h hcells.of_map hk
  case exact =>
    rintro e cells k _ h hshape rfl
    obtain ⟨hcells, hk⟩ := h.rect hshape
    exact ⟨fun n hn => powerIsProduct_of_exact h hcells hk hn,
      fun m hm n hn => exponentsAdd_of_exact h hcells hk hm hn⟩

/-! ## Two arithmetics -/

/-- Integers of any size, with `none` for what is not a number. -/
instance : Scalar (Option ℤ) where
  add x y := x.bind (fun a => y.map (a + ·))
  sub x y := x.bind (fun a => y.map (a - ·))
  mul x y := x.bind (fun a => y.map (a * ·))
  div x y := x.bind (fun a => y.map (a / ·))
  zero := some 0
  pow x y := x.bind (fun a => y.map (fun b => a ^ b.toNat))
  nan := none
  isNaN x := x.isNone
  isZero x := x == some 0
  toInt? x := x

theorem keeps_some : Keeps (some : ℤ → Option ℤ) := ⟨rfl, fun _ _ => rfl, fun _ _ => rfl⟩

/-- The matrix `[1, 1; 1, 0]` of two given numbers. -/
def fibonacci {β : Type} (one zero : β) : Expr β :=
  matrix [[number one .nowhere, number one .nowhere], [number one .nowhere, number zero .nowhere]]
    .nowhere

def fibonacciCells {β : Type} (one zero : β) : Grid β := [[one, one], [one, zero]]

theorem hasNumbers_fibonacci {one zero : α} (hone : Scalar.isNaN one = false)
    (hzero : Scalar.isNaN zero = false) :
    HasNumbers (fibonacci one zero) (fibonacciCells one zero) := by
  rw [hasNumbers_iff]
  simp [fibonacci, fibonacciCells, value, valueRows, valueRow, rectangular, Value.numbers?,
    Value.number?, hone, hzero]

theorem exactValue?_one : exactValue? 1 = some ((1 : ℤ) : ℚ) := by
  rw [exactValue?, isPower_one.toRat?_eq, zpow_zero, Int.cast_one]

theorem kept_fibonacci : Related Short.Kept ((fibonacciCells 1 0).map Tracked.of)
    (fibonacciCells ⟨some 1⟩ ⟨some 0⟩) := by
  have hone : Short.Kept (.of 1) ⟨some 1⟩ := Short.kept_of exactValue?_one
  have hzero : Short.Kept (.of 0) ⟨some 0⟩ :=
    Short.kept_of (isExactly_zero.value_eq.trans (by rw [Int.cast_zero]))
  exact .cons (.cons hone (.cons hone .nil)) (.cons (.cons hone (.cons hzero .nil)) .nil)

/-- The numbers on the way to the fifth power are short. -/
theorem allExact_fibonacci {tracked : Grid Tracked}
    (h : tracked = (fibonacciCells 1 0).map Tracked.of) :
    AllExact (tracked.pow 5) ∧ AllExact (tracked.chain 4) ∧
      AllExact ((tracked.pow 2).mul (tracked.pow 3)) := by
  have hkept := h ▸ kept_fibonacci
  have hstep := Short.inStep_kept
  refine ⟨?_, ?_, ?_⟩
  · exact Short.allExact_of_allShort (hstep.pow hkept (by decide)) (by decide +kernel)
  · exact Short.allExact_of_allShort (hstep.chain hkept 3) (by decide +kernel)
  · exact Short.allExact_of_allShort
      (hstep.mul (hstep.pow hkept (by decide)) (hstep.pow hkept (by decide))) (by decide +kernel)

theorem power_is_repeated_product_fibonacci :
    (∃ tracked : Grid Tracked, tracked = (fibonacciCells 1 0).map Tracked.of ∧
      AllExact (tracked.pow 5) ∧ AllExact (tracked.chain 4) ∧
      AllExact ((tracked.pow 2).mul (tracked.pow 3))) ∧
    (∃ cells, HasNumbers ((fibonacci (1 : Float) 0).toThe (number 5 .nowhere)) cells ∧
      HasNumbers ((fibonacci (1 : Float) 0).repeated 4) cells) ∧
    ExponentsAdd (fibonacci (1 : Float) 0) 2 3 ∧
    (∃ cells, HasNumbers ((fibonacci (some 1 : Option ℤ) (some 0)).toThe
        (number (some 99) .nowhere)) cells ∧
      HasNumbers ((fibonacci (some 1 : Option ℤ) (some 0)).repeated 98) cells) ∧
    ExponentsAdd (fibonacci (some 1 : Option ℤ) (some 0)) 44 55 := by
  obtain ⟨hpow, hchain, hproduct⟩ := allExact_fibonacci rfl
  have hfloats : HasNumbers (fibonacci (1 : Float) 0) (fibonacciCells 1 0) :=
    hasNumbers_fibonacci (by decide +kernel) (by decide +kernel)
  have hintegers : HasNumbers (fibonacci (some 1 : Option ℤ) (some 0))
      ((fibonacciCells (1 : ℤ) 0).map some) := hasNumbers_fibonacci rfl rfl
  -- the floats are exact up to the fifth power; the integers are exact at any
  obtain ⟨hring, hexact⟩ := power_is_repeated_product
  obtain ⟨hfloatPower, hfloatSum⟩ := hexact _ _ 2 _ hfloats rfl rfl
  obtain ⟨hintegerPower, hintegerSum⟩ :=
    hring (some : ℤ → Option ℤ) keeps_some (fun _ => rfl) _ _ 2 hintegers rfl
  have hfive : IsExponent (number (5 : Float) .nowhere) 5 :=
    ⟨rfl, 5, .nowhere, rfl, by decide +kernel⟩
  have hmany : IsExponent (number (some 99 : Option ℤ) .nowhere) 99 :=
    ⟨rfl, some 99, .nowhere, rfl, rfl⟩
  exact ⟨⟨_, rfl, hpow, hchain, hproduct⟩,
    hfloatPower 5 (by decide) hpow hchain _ hfive,
    hfloatSum 2 (by decide) 3 (by decide) hproduct hpow,
    hintegerPower 99 (by decide) _ hmany, hintegerSum 44 (by decide) 55 (by decide)⟩

end Expr
end LinearCalc
