import LinearCalc.Proofs.NotANumber
import LinearCalc.Proofs.Values.Rectangular

set_option autoImplicit false

/-! # Operations on what has no value

An operation with an operand that has no value has none either (`apply_isInvalid`), with one
exception: a power of numbers is one when the exponent is zero or the base is one, even where the
other of them is not a number. `Operator.absorbs` says which operands these are. An operation has
no value either where it makes no sense of its operands (`apply_of_accepts_eq_false`).
-/

namespace LinearCalc

namespace Value

def isInvalid {α : Type} [Scalar α] : Value α → Bool
  | scalar v => Scalar.isNaN v
  | matrix _ => false

theorem transposed_isInvalid {v : Value Float} (h : v.isInvalid = true) :
    v.transposed.isInvalid = true := by
  cases v with
  | scalar a =>
      show (0.0 / 0.0 : Float).isNaN = true
      decide +kernel
  | matrix rows => cases h

end Value

namespace Computed

/-- What is computed has no value. An operand that stays unchanged is a matrix. -/
def isInvalid {α : Type} [Scalar α] : Computed α → Bool
  | scalar v => Scalar.isNaN v
  | invalid => true
  | grid _ => false
  | unchanged => false

end Computed

namespace Operator

/-- The operation has a value although one of its operands is not a number. -/
def absorbs (op : Operator) (left right : Value Float) : Bool :=
  match op, left, right with
  | pow, .scalar a, .scalar b => (a.isNaN && b == 0) || (a == 1 && b.isNaN)
  | _, _, _ => false

/-- The operation makes sense of its operands: two numbers, or matrices of shapes that fit. No
number is divided by zero, and the exponent of a matrix is a positive integer. -/
def accepts (op : Operator) (left right : Value Float) : Bool :=
  match op, left, right with
  | add, .scalar _, .scalar _ | sub, .scalar _, .scalar _ => true
  | add, .matrix a, .matrix b | sub, .matrix a, .matrix b => shape a == shape b
  | mul, .matrix a, .matrix b => (shape a).2 == (shape b).1
  | mul, _, _ => true
  | div, _, .scalar b => !(b == 0)
  | pow, .scalar _, .scalar _ => true
  | pow, .matrix rows, .scalar b => (Value.matrixExponent? rows b).isSome
  | dot, .matrix a, .matrix b => shape a == shape b && ((shape a).1 == 1 || (shape a).2 == 1)
  | cross, .matrix a, .matrix b => shape a == shape b && ((shape a).1 == 1 || (shape a).2 == 1)
  | _, _, _ => false

end Operator

/-! ## Cells -/

variable {left right : Value Float}

theorem numbers?_of_isInvalid {v : Value Float} (h : v.isInvalid = true) : v.numbers? = none := by
  cases v with
  | scalar a => rfl
  | matrix rows => cases h

/-- Two values of which one is invalid are not two matrices of numbers. -/
theorem bothNumbers?_of_isInvalid (h : left.isInvalid = true ∨ right.isInvalid = true) :
    Value.bothNumbers? left right = none := by
  cases hboth : Value.bothNumbers? left right with
  | none => rfl
  | some cells =>
      obtain ⟨a, b⟩ := cells
      obtain ⟨ha, hb⟩ := Value.bothNumbers?_eq_some hboth
      rcases h with h | h
      · rw [numbers?_of_isInvalid h] at ha
        cases ha
      · rw [numbers?_of_isInvalid h] at hb
        cases hb

/-- **One cell that is not a number spoils a matrix**, and there is one when all cells are none. -/
theorem ofGrid_map_of_isNaN {v : Value Float} (hv : v.Rectangular) {cells : Grid Float}
    (hcells : v.numbers? = some cells) {f : Float → Float} (hf : ∀ x, (f x).isNaN = true) :
    Computed.ofGrid (cells.map f) = .invalid := by
  obtain ⟨m, n, hm, hn, hrect⟩ := hv.numbers hcells
  cases cells with
  | nil =>
      have hheight : 0 = m := hrect.height
      omega
  | cons row rows =>
      have hwidth : row.length = n := hrect.width row (by simp)
      -- a rectangle has a first cell, and this one alone makes the result invalid
      cases row with
      | nil =>
          rw [List.length_nil] at hwidth
          omega
      | cons x row =>
          have hspoilt : Scalar.isNaN (f x) = true := hf x
          simp [Computed.ofGrid, hspoilt]

/-! ## Operations -/

theorem elementwise_isInvalid {f : Float → Float → Float}
    (hf : ∀ {a b : Float}, a.isNaN = true ∨ b.isNaN = true → (f a b).isNaN = true)
    (h : left.isInvalid = true ∨ right.isInvalid = true) :
    (left.elementwise f right).isInvalid = true := by
  unfold Value.elementwise
  split
  · exact hf h
  · rw [bothNumbers?_of_isInvalid h]
    rfl

theorem multiply_isInvalid (hl : left.Rectangular) (hr : right.Rectangular)
    (h : left.isInvalid = true ∨ right.isInvalid = true) :
    (left.multiply right).isInvalid = true := by
  unfold Value.multiply
  -- two numbers, a number and a matrix, a matrix and a number, or two matrices
  split
  · exact isNaN_mul h
  · rename_i factor hmatrix
    split
    · rename_i cells hcells
      rcases h with h | h
      · rw [ofGrid_map_of_isNaN hr hcells (fun x => isNaN_mul (.inr h))]
        rfl
      · rw [numbers?_of_isInvalid h] at hcells
        cases hcells
    · rfl
  · rename_i factor hmatrix
    split
    · rename_i cells hcells
      rcases h with h | h
      · rw [numbers?_of_isInvalid h] at hcells
        cases hcells
      · rw [ofGrid_map_of_isNaN hl hcells (fun x => isNaN_mul (.inr h))]
        rfl
    · rfl
  · rw [bothNumbers?_of_isInvalid h]
    rfl

theorem divide_isInvalid (hl : left.Rectangular)
    (h : left.isInvalid = true ∨ right.isInvalid = true) :
    (left.divide right).isInvalid = true := by
  unfold Value.divide
  split
  · rfl
  · rename_i divisor
    split
    · rfl
    · split
      · exact isNaN_div h
      · split
        · rename_i cells hcells
          -- a matrix without a value has no numbers; a divisor without a value spoils each cell
          rcases h with h | h
          · rw [numbers?_of_isInvalid h] at hcells
            cases hcells
          · rw [ofGrid_map_of_isNaN hl hcells (fun x => isNaN_div (.inr h))]
            rfl
        · rfl

/-- A power has no value, unless it absorbs what is not a number. -/
theorem power_isInvalid (h : left.isInvalid = true ∨ right.isInvalid = true) :
    (left.power right).isInvalid = !Operator.pow.absorbs left right := by
  unfold Value.power
  split
  · rename_i a b
    show (floatPow a b).isNaN = !((a.isNaN && b == 0) || (a == 1 && b.isNaN))
    rcases h with h | h
    · have ha : a.isNaN = true := h
      rw [isNaN_floatPow_left ha, ha, beq_eq_false_of_isNaN ha 1, Bool.true_and, Bool.false_and,
        Bool.or_false]
    · have hb : b.isNaN = true := h
      rw [isNaN_floatPow_right a hb, hb, beq_eq_false_of_isNaN hb 0, Bool.and_false,
        Bool.and_true, Bool.false_or]
  · rename_i rows b
    rcases h with h | h
    · cases h
    -- an exponent that is not a number is no integer either, so there is no power of a matrix
    · have hexponent : Value.matrixExponent? rows b = none := by
        have hnan : b = 0.0 / 0.0 := eq_nan h
        have hint : Scalar.toInt? (0.0 / 0.0 : Float) = none := by decide +kernel
        unfold Value.matrixExponent?
        rw [hnan, hint]
        split <;> rfl
      rw [hexponent]
      rfl
  · rename_i hno hmatrix
    cases right with
    | scalar b =>
        cases left with
        | scalar a => exact absurd rfl (hno a b rfl)
        | matrix rows => exact absurd rfl (hmatrix rows b rfl)
    | matrix rows => cases left <;> rfl

theorem vectors?_of_isInvalid (h : left.isInvalid = true ∨ right.isInvalid = true) :
    Value.vectors? left right = none := by
  rw [Value.vectors?, bothNumbers?_of_isInvalid h]
  rfl

/-- **An operation on what has no value has none**, unless it absorbs it. -/
theorem apply_isInvalid (op : Operator) (hl : left.Rectangular) (hr : right.Rectangular)
    (h : left.isInvalid = true ∨ right.isInvalid = true) :
    (op.apply left right).isInvalid = !op.absorbs left right := by
  cases op with
  | add => exact elementwise_isInvalid isNaN_add h
  | sub => exact elementwise_isInvalid isNaN_sub h
  | mul => exact multiply_isInvalid hl hr h
  | div => exact divide_isInvalid hl h
  | pow => exact power_isInvalid h
  | dot =>
      show (left.dotProduct right).isInvalid = true
      rw [Value.dotProduct, vectors?_of_isInvalid h]
      rfl
  | cross =>
      show (left.crossProduct right).isInvalid = true
      rw [Value.crossProduct, vectors?_of_isInvalid h]
      rfl

/-! ## Operands that do not fit -/

/-- The numbers of two rectangular matrices, which have the shapes of the matrices. -/
theorem shapes_of_bothNumbers? (hl : left.Rectangular) (hr : right.Rectangular)
    {a b : Grid Float} (h : Value.bothNumbers? left right = some (a, b)) :
    ∃ rows rows', left = .matrix rows ∧ right = .matrix rows' ∧ shape a = shape rows ∧
      shape b = shape rows' := by
  obtain ⟨ha, hb⟩ := Value.bothNumbers?_eq_some h
  cases left with
  | scalar v => cases ha
  | matrix rows =>
      cases right with
      | scalar v => cases hb
      | matrix rows' =>
          obtain ⟨m, n, hm, -, hrect⟩ := (rectangular_iff rows).1 hl
          obtain ⟨m', n', hm', -, hrect'⟩ := (rectangular_iff rows').1 hr
          refine ⟨rows, rows', rfl, rfl, ?_, ?_⟩
          · rw [(hrect.mapM ha).shape_eq hm, hrect.shape_eq hm]
          · rw [(hrect'.mapM hb).shape_eq hm', hrect'.shape_eq hm']

theorem elementwise_of_accepts_eq_false (f : Float → Float → Float) (hl : left.Rectangular)
    (hr : right.Rectangular) (h : Operator.add.accepts left right = false) :
    left.elementwise f right = .invalid := by
  unfold Value.elementwise
  split
  · cases h
  · split
    · rename_i a b hboth
      obtain ⟨rows, rows', rfl, rfl, ha, hb⟩ := shapes_of_bothNumbers? hl hr hboth
      have hne : shape a ≠ shape b := by
        rw [ha, hb]
        exact beq_eq_false_iff_ne.1 h
      exact if_neg hne
    · rfl

theorem multiply_of_accepts_eq_false (hl : left.Rectangular) (hr : right.Rectangular)
    (h : Operator.mul.accepts left right = false) : left.multiply right = .invalid := by
  cases left with
  | scalar a => cases h
  | matrix rows =>
      cases right with
      | scalar b => cases h
      | matrix rows' =>
          simp only [Value.multiply]
          split
          · rename_i a b hboth
            obtain ⟨_, _, heq, heq', ha, hb⟩ := shapes_of_bothNumbers? hl hr hboth
            cases heq
            cases heq'
            -- a number goes with everything, so two matrices are left, whose inner sizes differ
            have hne : (shape a).2 ≠ (shape b).1 := by
              rw [ha, hb]
              exact beq_eq_false_iff_ne.1 h
            exact if_neg hne
          · rfl

theorem divide_of_accepts_eq_false (h : Operator.div.accepts left right = false) :
    left.divide right = .invalid := by
  cases right with
  | matrix rows => rfl
  | scalar b =>
      have hnot : (!(b == 0)) = false := by
        cases left <;> exact h
      have hzero : Scalar.isZero b = true := by
        rw [Bool.not_eq_eq_eq_not, Bool.not_false] at hnot
        exact hnot
      exact if_pos hzero

theorem power_of_accepts_eq_false (h : Operator.pow.accepts left right = false) :
    left.power right = .invalid := by
  cases right with
  | matrix rows => cases left <;> rfl
  | scalar b =>
      cases left with
      | scalar a => cases h
      | matrix rows =>
          have hexponent : Value.matrixExponent? rows b = none :=
            Option.isNone_iff_eq_none.1 (Option.isSome_eq_false_iff.1 h)
          simp only [Value.power, hexponent]

theorem vectors?_of_accepts_eq_false (hl : left.Rectangular) (hr : right.Rectangular)
    (h : Operator.dot.accepts left right = false) : Value.vectors? left right = none := by
  unfold Value.vectors?
  cases hboth : Value.bothNumbers? left right with
  | none => rfl
  | some cells =>
      obtain ⟨a, b⟩ := cells
      obtain ⟨rows, rows', rfl, rfl, ha, hb⟩ := shapes_of_bothNumbers? hl hr hboth
      -- reading the numbers keeps the shapes, so it fails for the reason that `accepts` gives
      have hno : ¬ (shape a = shape b ∧ ((shape a).1 = 1 ∨ (shape a).2 = 1)) := by
        rw [ha, hb]
        rintro ⟨hshape, hvector⟩
        have haccepts : Operator.dot.accepts (.matrix rows) (.matrix rows') = true := by
          simp [Operator.accepts, hshape]
          simpa [hshape] using hvector
        rw [h] at haccepts
        cases haccepts
      exact if_neg hno

/-- **An operation has no value where it makes no sense of its operands.** -/
theorem apply_of_accepts_eq_false (op : Operator) (hl : left.Rectangular)
    (hr : right.Rectangular) (h : op.accepts left right = false) :
    op.apply left right = .invalid := by
  cases op with
  | add => exact elementwise_of_accepts_eq_false _ hl hr h
  | sub =>
      -- a difference asks for the same shapes as a sum
      have hadd : Operator.add.accepts left right = false := by
        rw [← h]
        cases left <;> cases right <;> rfl
      exact elementwise_of_accepts_eq_false _ hl hr hadd
  | mul => exact multiply_of_accepts_eq_false hl hr h
  | div => exact divide_of_accepts_eq_false h
  | pow => exact power_of_accepts_eq_false h
  | dot =>
      show left.dotProduct right = .invalid
      rw [Value.dotProduct, vectors?_of_accepts_eq_false hl hr h]
  | cross =>
      -- a cross product asks for the same vectors as a dot product
      have hdot : Operator.dot.accepts left right = false := by
        rw [← h]
        cases left <;> cases right <;> rfl
      show left.crossProduct right = .invalid
      rw [Value.crossProduct, vectors?_of_accepts_eq_false hl hr hdot]

end LinearCalc
