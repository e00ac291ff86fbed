import LinearCalc.Proofs.Transposes.Grids
import LinearCalc.Proofs.Values.Computed

set_option autoImplicit false

/-! # Turning the operands of an operation

What an operation computes of transposed operands is the transpose of what it computes of the
operands (`elementwise_transposed`, `crossProduct_transposed` and so on). In particular it makes no
sense of the ones just when it makes no sense of the others. For a product the operands change
places, which needs that factors may be exchanged.
-/

namespace LinearCalc

variable {α : Type} [Scalar α]

/-- The transpose of what was computed, where that is a matrix. -/
def Computed.transposed : Computed α → Computed α
  | grid cells => grid (transpose cells)
  | _ => invalid

namespace Computed

/-- A value of its own does not depend on the left operand. -/
theorem Own.value_eq {c : Computed α} (h : c.Own) (left left' : Value α) :
    c.value left = c.value left' := by
  cases c with
  | unchanged => cases h
  | _ => rfl

/-- The transpose of a value is the value of the transpose. -/
theorem Own.value_transposed {c : Computed α} (h : c.Own) (left left' : Value α) :
    (c.value left).transposed = c.transposed.value left' := by
  cases c with
  | scalar v => rfl
  | grid cells => exact congrArg Value.matrix (transpose_map Value.scalar cells)
  | unchanged => cases h
  | invalid => rfl

theorem ofGrid_transpose {m n : Nat} {cells : Grid α} (h : Rect m n cells) (hm : 0 < m) :
    ofGrid (transpose cells) = (ofGrid cells).transposed := by
  unfold ofGrid
  rw [any_transpose h hm]
  split <;> rfl

end Computed

/-! ## The numbers of a transpose -/

namespace Value

variable {a b : List (List (Value α))}

theorem numbers?_transpose_of_some {rows : List (List (Value α))} {cells : Grid α}
    (h : (matrix rows).numbers? = some cells) :
    (matrix (transpose rows)).numbers? = some (transpose cells) := by
  have hcells := (mapM_rows_eq_some_iff number? rows cells).1 h
  refine (mapM_rows_eq_some_iff number? (transpose rows) (transpose cells)).2 ?_
  rw [← transpose_map, hcells, transpose_map]

/-- **The numbers of a transpose are the numbers, transposed**; if there are none on the one side,
there are none on the other. -/
theorem numbers?_transpose (h : (matrix a).Rectangular) :
    (matrix (transpose a)).numbers? = (matrix a).numbers?.map transpose := by
  obtain ⟨m, n, hm, hn, hrect⟩ := (rectangular_iff a).1 h
  cases hnumbers : (matrix a).numbers? with
  | some cells => exact numbers?_transpose_of_some hnumbers
  | none =>
      cases hturned : (matrix (transpose a)).numbers? with
      | none => rfl
      | some cells =>
          -- turned back, these would be numbers of the matrix itself
          have hback := numbers?_transpose_of_some hturned
          rw [transpose_transpose hrect hm hn, hnumbers] at hback
          cases hback

/-- The same for two matrices. -/
theorem bothNumbers?_transpose (ha : (matrix a).Rectangular) (hb : (matrix b).Rectangular) :
    bothNumbers? (matrix (transpose a)) (matrix (transpose b))
      = (bothNumbers? (matrix a) (matrix b)).map (Prod.map transpose transpose) := by
  unfold bothNumbers?
  rw [numbers?_transpose ha, numbers?_transpose hb]
  cases (matrix a).numbers? <;> cases (matrix b).numbers? <;> rfl

theorem bothNumbers?_swap (left right : Value α) :
    bothNumbers? right left = (bothNumbers? left right).map Prod.swap := by
  unfold bothNumbers?
  cases left.numbers? <;> cases right.numbers? <;> rfl

/-- Numbers of rectangular matrices are rectangles. -/
theorem rect_of_bothNumbers? {left right : Value α} (hl : left.Rectangular)
    (hr : right.Rectangular) {x y : Grid α} (h : bothNumbers? left right = some (x, y)) :
    ∃ m n k l, 0 < m ∧ 0 < n ∧ 0 < k ∧ 0 < l ∧ Rect m n x ∧ Rect k l y := by
  obtain ⟨hx, hy⟩ := bothNumbers?_eq_some h
  obtain ⟨m, n, hm, hn, hxrect⟩ := hl.numbers hx
  obtain ⟨k, l, hk, hl, hyrect⟩ := hr.numbers hy
  exact ⟨m, n, k, l, hm, hn, hk, hl, hxrect, hyrect⟩

/-! ## Operations -/

theorem elementwise_matrix (f : α → α → α) (a b : List (List (Value α))) :
    (matrix a).elementwise f (matrix b) = match bothNumbers? (matrix a) (matrix b) with
      | some (x, y) => if shape x = shape y then .ofGrid (x.zipWith f y) else .invalid
      | none => .invalid := rfl

/-- **The sum of transposes is the transpose of the sum**, and so for every operation that goes cell
by cell. -/
theorem elementwise_transposed (f : α → α → α) (ha : (matrix a).Rectangular)
    (hb : (matrix b).Rectangular) :
    (matrix (transpose a)).elementwise f (matrix (transpose b))
      = ((matrix a).elementwise f (matrix b)).transposed := by
  rw [elementwise_matrix, elementwise_matrix, bothNumbers?_transpose ha hb]
  cases hboth : bothNumbers? (matrix a) (matrix b) with
  | none => rfl
  | some both =>
      obtain ⟨x, y⟩ := both
      obtain ⟨m, n, k, l, hm, hn, hk, hl, hx, hy⟩ := rect_of_bothNumbers? ha hb hboth
      dsimp only [Option.map_some, Prod.map_apply]
      rw [hx.shape_eq hm, hy.shape_eq hk, (hx.transpose hm).shape_eq hn,
        (hy.transpose hk).shape_eq hl]
      -- the transposes have one shape just when the matrices have
      by_cases hshape : m = k ∧ n = l
      · obtain ⟨rfl, rfl⟩ := hshape
        rw [if_pos rfl, if_pos rfl, ← transpose_zipWith f hx hy hm,
          Computed.ofGrid_transpose (hx.zipWith f hy) hm]
      · have hne : (m, n) ≠ (k, l) := fun h => hshape (Prod.mk.inj h)
        have hne' : (n, m) ≠ (l, k) := fun h => hshape (Prod.mk.inj h).symm
        rw [if_neg hne, if_neg hne']
        rfl

theorem multiply_matrix (a b : List (List (Value α))) :
    (matrix a).multiply (matrix b) = match bothNumbers? (matrix a) (matrix b) with
      | some (x, y) => if (shape x).2 = (shape y).1 then .ofGrid (x.mul y) else .invalid
      | none => .invalid := rfl

/-- **The product of the transposes, the other way round, is the transpose of the product.** -/
theorem multiply_transposed (hcomm : ∀ v w : α, v * w = w * v) (ha : (matrix a).Rectangular)
    (hb : (matrix b).Rectangular) :
    (matrix (transpose b)).multiply (matrix (transpose a))
      = ((matrix a).multiply (matrix b)).transposed := by
  rw [multiply_matrix, multiply_matrix, bothNumbers?_transpose hb ha, bothNumbers?_swap (matrix a)]
  cases hboth : bothNumbers? (matrix a) (matrix b) with
  | none => rfl
  | some both =>
      obtain ⟨x, y⟩ := both
      obtain ⟨m, n, k, l, hm, hn, hk, hl, hx, hy⟩ := rect_of_bothNumbers? ha hb hboth
      dsimp only [Option.map_some, Prod.swap_prod_mk, Prod.map_apply]
      rw [hx.shape_eq hm, hy.shape_eq hk, (hx.transpose hm).shape_eq hn,
        (hy.transpose hk).shape_eq hl]
      -- the inner sizes meet on either side
      by_cases hshape : n = k
      · subst hshape
        rw [if_pos rfl, if_pos rfl, ← transpose_mul hcomm hx hy hm hn,
          Computed.ofGrid_transpose (hx.mul hy hn) hm]
      · rw [if_neg hshape, if_neg (fun h => hshape h.symm)]
        rfl

theorem multiply_scalar_matrix (factor : α) (b : List (List (Value α))) :
    (scalar factor).multiply (matrix b) = match (matrix b).numbers? with
      | some cells => .ofGrid (cells.map (· * factor))
      | none => .invalid := rfl

theorem divide_matrix (a : List (List (Value α))) (divisor : α) :
    (matrix a).divide (scalar divisor) = if Scalar.isZero divisor then .invalid else
      match (matrix a).numbers? with
      | some cells => .ofGrid (cells.map (· / divisor))
      | none => .invalid := rfl

/-- Cells that are changed one by one may be changed before or after the turn. -/
theorem ofGrid_map_transpose {m n : Nat} {cells : Grid α} (h : Rect m n cells) (hm : 0 < m)
    (f : α → α) :
    Computed.ofGrid (Grid.map f (transpose cells))
      = (Computed.ofGrid (cells.map f)).transposed := by
  have hturned : Grid.map f (transpose cells) = transpose (cells.map f) :=
    (transpose_map f cells).symm
  have hrect : Rect m n (cells.map f) := h.map f
  rw [hturned, Computed.ofGrid_transpose hrect hm]

/-- **Multiples of a transpose are transposes of multiples.** -/
theorem multiply_scalar_transposed (factor : α) (hb : (matrix b).Rectangular) :
    (scalar factor).multiply (matrix (transpose b))
      = ((scalar factor).multiply (matrix b)).transposed := by
  rw [multiply_scalar_matrix, multiply_scalar_matrix, numbers?_transpose hb]
  cases hnumbers : (matrix b).numbers? with
  | none => rfl
  | some cells =>
      obtain ⟨m, n, hm, -, hrect⟩ := hb.numbers hnumbers
      exact ofGrid_map_transpose hrect hm _

/-- **A transpose is divided like the matrix.** -/
theorem divide_transposed (divisor : α) (ha : (matrix a).Rectangular) :
    (matrix (transpose a)).divide (scalar divisor)
      = ((matrix a).divide (scalar divisor)).transposed := by
  rw [divide_matrix, divide_matrix]
  by_cases hzero : Scalar.isZero divisor = true
  · rw [if_pos hzero, if_pos hzero]
    rfl
  · rw [if_neg hzero, if_neg hzero]
    rw [numbers?_transpose ha]
    cases hnumbers : (matrix a).numbers? with
    | none => rfl
    | some cells =>
        obtain ⟨m, n, hm, -, hrect⟩ := ha.numbers hnumbers
        exact ofGrid_map_transpose hrect hm _

/-! ## Vectors -/

/-- Vectors are rectangles of one shape, with one row or one column. -/
theorem rect_of_vectors? {left right : Value α} (hl : left.Rectangular) (hr : right.Rectangular)
    {x y : Grid α} (h : vectors? left right = some (x, y)) :
    ∃ m n, 0 < m ∧ 0 < n ∧ (m = 1 ∨ n = 1) ∧ Rect m n x ∧ Rect m n y := by
  unfold vectors? at h
  cases hboth : bothNumbers? left right with
  | none =>
      rw [hboth] at h
      cases h
  | some both =>
      obtain ⟨x', y'⟩ := both
      obtain ⟨m, n, k, l, hm, hn, hk, hl, hx, hy⟩ := rect_of_bothNumbers? hl hr hboth
      simp only [hboth, Option.bind_eq_bind, Option.bind_some] at h
      rw [hx.shape_eq hm, hy.shape_eq hk] at h
      split at h
      · rename_i hvectors
        obtain ⟨hshape, hone⟩ := hvectors
        obtain ⟨rfl, rfl⟩ := Prod.mk.inj hshape
        obtain ⟨rfl, rfl⟩ := Prod.mk.inj (Option.some.inj h)
        exact ⟨m, n, hm, hn, hone, hx, hy⟩
      · cases h

/-- **Two matrices are vectors of one length when their transposes are.** -/
theorem vectors?_transpose (ha : (matrix a).Rectangular) (hb : (matrix b).Rectangular) :
    vectors? (matrix (transpose a)) (matrix (transpose b))
      = (vectors? (matrix a) (matrix b)).map (Prod.map transpose transpose) := by
  unfold vectors?
  rw [bothNumbers?_transpose ha hb]
  cases hboth : bothNumbers? (matrix a) (matrix b) with
  | none => rfl
  | some both =>
      obtain ⟨x, y⟩ := both
      obtain ⟨m, n, k, l, hm, hn, hk, hl, hx, hy⟩ := rect_of_bothNumbers? ha hb hboth
      simp only [Option.map_some, Prod.map_apply, Option.bind_eq_bind, Option.bind_some]
      rw [hx.shape_eq hm, hy.shape_eq hk, (hx.transpose hm).shape_eq hn,
        (hy.transpose hk).shape_eq hl]
      -- a transpose turns both shapes around, and one row into one column
      by_cases hvectors : (m, n) = (k, l) ∧ (m = 1 ∨ n = 1)
      · obtain ⟨hshape, hone⟩ := hvectors
        obtain ⟨rfl, rfl⟩ := Prod.mk.inj hshape
        rw [if_pos ⟨rfl, hone.symm⟩, if_pos ⟨rfl, hone⟩]
        rfl
      · have hnot : ¬ ((n, m) = (l, k) ∧ (n = 1 ∨ m = 1)) := by
          rintro ⟨hshape, hone⟩
          obtain ⟨rfl, rfl⟩ := Prod.mk.inj hshape
          exact hvectors ⟨rfl, hone.symm⟩
        rw [if_neg hvectors, if_neg hnot]
        rfl

/-- **The dot product of transposes is that of the vectors.** -/
theorem dotProduct_transposed (ha : (matrix a).Rectangular) (hb : (matrix b).Rectangular) :
    (matrix (transpose a)).dotProduct (matrix (transpose b))
      = (matrix a).dotProduct (matrix b) := by
  unfold dotProduct
  rw [vectors?_transpose ha hb]
  cases hvectors : vectors? (matrix a) (matrix b) with
  | none => rfl
  | some both =>
      obtain ⟨x, y⟩ := both
      obtain ⟨m, n, hm, hn, hone, hx, hy⟩ := rect_of_vectors? ha hb hvectors
      dsimp only [Option.map_some, Prod.map_apply]
      rw [flatten_transpose hx hm hn hone, flatten_transpose hy hm hn hone]

/-- **The cross product of transposes is the transpose of the cross product.** -/
theorem crossProduct_transposed (ha : (matrix a).Rectangular) (hb : (matrix b).Rectangular) :
    (matrix (transpose a)).crossProduct (matrix (transpose b))
      = ((matrix a).crossProduct (matrix b)).transposed := by
  unfold crossProduct
  rw [vectors?_transpose ha hb]
  cases hvectors : vectors? (matrix a) (matrix b) with
  | none => rfl
  | some both =>
      obtain ⟨x, y⟩ := both
      obtain ⟨m, n, hm, hn, hone, hx, hy⟩ := rect_of_vectors? ha hb hvectors
      dsimp only [Option.map_some, Prod.map_apply]
      rw [flatten_transpose hx hm hn hone, flatten_transpose hy hm hn hone]
      cases hcross : Grid.cross? x.flatten y.flatten with
      | none => rfl
      | some cells =>
          obtain ⟨hthree, hlength⟩ := length_of_cross? hcross
          rw [hx.length_flatten] at hthree
          -- one row or column of three cells is arranged the same way before and after the turn
          have hvector : m = 1 ∧ n = 3 ∨ m = 3 ∧ n = 1 := by
            rcases hone with rfl | rfl <;> omega
          obtain ⟨k, l, hk, -, hrect⟩ :=
            (rectangular_iff _).1 (rectangular_arrangeLike x hlength)
          dsimp only
          rw [← transpose_arrangeLike hx hm hlength hvector, Computed.ofGrid_transpose hrect hk]

end Value
end LinearCalc
