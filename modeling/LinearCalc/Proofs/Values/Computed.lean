import LinearCalc.Proofs.Values.Results

set_option autoImplicit false

/-! # Computed matrices

A matrix that an operation computes has numbers in all its cells (`Operator.apply_own`), and put
into a tree it gives exactly these cells back (`numbers?_matrix`). Only a power with the exponent
one computes nothing and leaves its operand as it is.
-/

namespace LinearCalc

variable {α : Type} [Scalar α]

/-- No cell is what is not a number. -/
def NumberCells (cells : Grid α) : Prop := ∀ row ∈ cells, ∀ v ∈ row, Scalar.isNaN v = false

namespace Computed

/-- The operation computed a result of its own, in which no cell is what is not a number. -/
def Own : Computed α → Prop
  | scalar _ => True
  | grid cells => NumberCells cells
  | unchanged => False
  | invalid => True

/-- **One cell that is not a number spoils a matrix**, so the others have numbers only. -/
theorem own_ofGrid (cells : Grid α) : (ofGrid cells).Own := by
  unfold ofGrid
  split
  · trivial
  · rename_i hany
    intro row hrow v hv
    cases hnan : Scalar.isNaN v with
    | false => rfl
    | true =>
        refine absurd ?_ hany
        exact List.any_eq_true.2 ⟨row, hrow, List.any_eq_true.2 ⟨v, hv, hnan⟩⟩

end Computed

/-! ## Operations -/

namespace Value

theorem elementwise_own (f : α → α → α) (left right : Value α) :
    (left.elementwise f right).Own := by
  unfold elementwise
  split
  · trivial
  · split
    · split
      · exact Computed.own_ofGrid _
      · trivial
    · trivial

theorem multiply_own (left right : Value α) : (left.multiply right).Own := by
  unfold multiply
  split
  · trivial
  · split
    · exact Computed.own_ofGrid _
    · trivial
  · split
    · exact Computed.own_ofGrid _
    · trivial
  · split
    · split
      · exact Computed.own_ofGrid _
      · trivial
    · trivial

theorem divide_own (left right : Value α) : (left.divide right).Own := by
  unfold divide
  split
  · trivial
  · split
    · trivial
    · split
      · trivial
      · split
        · exact Computed.own_ofGrid _
        · trivial

theorem dotProduct_own (left right : Value α) : (left.dotProduct right).Own := by
  unfold dotProduct
  split
  · dsimp only
    split <;> trivial
  · trivial

theorem crossProduct_own (left right : Value α) : (left.crossProduct right).Own := by
  unfold crossProduct
  split
  · split
    · exact Computed.own_ofGrid _
    · trivial
  · trivial

/-- The exponent of a power that leaves its operand as it is. -/
theorem matrixExponent?_ne_one {exponent : α} (h : Scalar.toInt? exponent ≠ some 1)
    (rows : List (List (Value α))) : matrixExponent? rows exponent ≠ some 1 := by
  unfold matrixExponent?
  split
  · split
    · rename_i n hint
      rintro heq
      obtain rfl : n = 0 := by
        have hsucc := Option.some.inj heq
        omega
      exact h hint
    · rintro ⟨⟩
  · rintro ⟨⟩

theorem power_own {left right : Value α}
    (h : ∀ exponent, right = scalar exponent → Scalar.toInt? exponent ≠ some 1) :
    (left.power right).Own := by
  unfold power
  split
  · trivial
  · rename_i rows exponent
    split
    · trivial
    · rename_i n hn
      -- only the first power gives back its operand unchanged
      have hne : n ≠ 1 := by
        rintro rfl
        exact matrixExponent?_ne_one (h exponent rfl) rows hn
      rw [if_neg hne]
      split
      · exact Computed.own_ofGrid _
      · trivial
  · trivial

end Value

/-- **What an operation computes has numbers in its cells.** -/
theorem Operator.apply_own (op : Operator) {left right : Value α}
    (h : op = .pow → ∀ exponent, right = .scalar exponent → Scalar.toInt? exponent ≠ some 1) :
    (op.apply left right).Own := by
  cases op with
  | add => exact Value.elementwise_own _ left right
  | sub => exact Value.elementwise_own _ left right
  | mul => exact Value.multiply_own left right
  | div => exact Value.divide_own left right
  | pow => exact Value.power_own (h rfl)
  | dot => exact Value.dotProduct_own left right
  | cross => exact Value.crossProduct_own left right

/-! ## Trees of cells -/

namespace Expr

/-- **The numbers in a tree of cells are the cells.** -/
theorem numbers?_matrix {cells : Grid α} (h : NumberCells cells) {s s' : Span}
    (hrect : rectangular (cells.map (fun v => number v s)) = true) :
    (matrix (cells.map (fun v => number v s)) s').numbers? = some cells := by
  rw [numbers?, if_pos hrect, mapM_rows_eq_some_iff, Grid.map, List.map_map]
  refine List.map_congr_left (fun row hrow => ?_)
  rw [Function.comp_apply, List.map_map]
  refine List.map_congr_left (fun v hv => ?_)
  show (if Scalar.isNaN v then none else some v) = some v
  rw [h row hrow v hv]
  rfl

end Expr
end LinearCalc
