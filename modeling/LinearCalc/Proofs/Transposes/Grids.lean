import LinearCalc.Proofs.Rectangles

set_option autoImplicit false

/-! # Turning grids

The transpose of a rectangle has the element of row `j` and column `i` in row `i` and column `j`
(`elementAt_transpose`). So it undoes itself (`transpose_transpose`), it may be taken before or
after cells are combined (`transpose_zipWith`), and it turns a product around (`transpose_mul`) as
long as factors may be exchanged. A row has the same cells, in the same order, as the column that it
turns into (`flatten_transpose`).
-/

namespace LinearCalc

variable {β : Type} {m n k : Nat}

/-! ## Elements -/

/-- Rectangles of one shape are equal when they are at every place. -/
theorem Rect.ext {a b : List (List β)} (ha : Rect m n a) (hb : Rect m n b)
    (h : ∀ i j, elementAt a i j = elementAt b i j) : a = b := by
  refine ha.eq_of_elements hb ?_
  intro i j c c' hc hc'
  rw [h i j, hc'] at hc
  exact (Option.some.inj hc).symm

/-- Putting a row in front of the columns: its elements come first. -/
theorem elementAt_zipWith_cons {row : List β} {columns : List (List β)}
    (h : columns.length = row.length) (i j : Nat) :
    elementAt (List.zipWith List.cons row columns) i j
      = match j with
        | 0 => row[i]?
        | j + 1 => elementAt columns i j := by
  rw [elementAt, List.getElem?_zipWith]
  -- behind the row there is no column either
  by_cases hi : i < row.length
  · have hrow : row[i]? = some row[i] := List.getElem?_eq_getElem hi
    have hcolumn : columns[i]? = some columns[i] := List.getElem?_eq_getElem (h ▸ hi)
    cases j with
    | zero => rw [hrow, hcolumn]; rfl
    | succ j =>
        show _ = elementAt columns i j
        rw [elementAt, hrow, hcolumn]
        rfl
  · have hrow : row[i]? = none := List.getElem?_eq_none (Nat.le_of_not_lt hi)
    have hcolumn : columns[i]? = none := List.getElem?_eq_none (h ▸ Nat.le_of_not_lt hi)
    cases j with
    | zero => rw [hrow, hcolumn]; rfl
    | succ j =>
        show _ = elementAt columns i j
        rw [elementAt, hrow, hcolumn]
        rfl

theorem elementAt_foldr {rows : List (List β)} (h : Rect m n rows) (i j : Nat) :
    elementAt (rows.foldr (List.zipWith List.cons) (List.replicate n [])) i j
      = elementAt rows j i := by
  induction rows generalizing m j with
  | nil =>
      rw [List.foldr_nil, elementAt, elementAt, List.getElem?_replicate]
      split <;> rfl
  | cons row rows ih =>
      have hrest : Rect rows.length n rows := ⟨rfl, fun r hr => h.width r (by simp [hr])⟩
      have hlength : (rows.foldr (List.zipWith List.cons) (List.replicate n [])).length
          = row.length := by
        rw [hrest.foldr.height, h.width row (by simp)]
      rw [List.foldr_cons, elementAt_zipWith_cons hlength]
      -- the first row is in front of the columns, the other rows are behind it
      cases j with
      | zero => rfl
      | succ j => exact ih hrest j

/-- **The transpose has the elements of the rectangle, with rows and columns exchanged.** -/
theorem elementAt_transpose {rows : List (List β)} (h : Rect m n rows) (hm : 0 < m) (i j : Nat) :
    elementAt (transpose rows) i j = elementAt rows j i := by
  rw [transpose, h.shape_eq hm]
  exact elementAt_foldr h i j

/-- **The transpose undoes itself.** -/
theorem transpose_transpose {rows : List (List β)} (h : Rect m n rows) (hm : 0 < m) (hn : 0 < n) :
    transpose (transpose rows) = rows := by
  refine ((h.transpose hm).transpose hn).ext h ?_
  intro i j
  rw [elementAt_transpose (h.transpose hm) hn, elementAt_transpose h hm]

theorem elementAt_zipWith (f : β → β → β) (a b : Grid β) (i j : Nat) :
    elementAt (a.zipWith f b) i j
      = (elementAt a i j).bind (fun x => (elementAt b i j).map (f x)) := by
  rw [elementAt, elementAt, elementAt, Grid.zipWith, List.getElem?_zipWith]
  cases a[i]? with
  | none => rfl
  | some row =>
      cases b[i]? with
      | none =>
          show none = row[j]?.bind (fun x => none)
          cases row[j]? <;> rfl
      | some row' =>
          show (List.zipWith f row row')[j]? = row[j]?.bind (fun x => row'[j]?.map (f x))
          rw [List.getElem?_zipWith]
          cases row[j]? <;> cases row'[j]? <;> rfl

/-- **Cells may be combined before or after the turn.** -/
theorem transpose_zipWith (f : β → β → β) {a b : Grid β} (ha : Rect m n a) (hb : Rect m n b)
    (hm : 0 < m) :
    transpose (a.zipWith f b) = Grid.zipWith f (transpose a) (transpose b) := by
  refine ((ha.zipWith f hb).transpose hm).ext
    ((ha.transpose hm).zipWith f (hb.transpose hm)) ?_
  intro i j
  rw [elementAt_transpose (ha.zipWith f hb) hm, elementAt_zipWith, elementAt_zipWith,
    elementAt_transpose ha hm, elementAt_transpose hb hm]

/-- There is an element of a kind when there is one at some place. -/
theorem any_iff_elementAt (rows : List (List β)) (p : β → Bool) :
    rows.any (fun row => row.any p) = true ↔ ∃ i j c, elementAt rows i j = some c ∧ p c = true := by
  constructor
  · intro h
    obtain ⟨row, hrow, hany⟩ := List.any_eq_true.1 h
    obtain ⟨c, hc, hp⟩ := List.any_eq_true.1 hany
    obtain ⟨i, hi⟩ := List.getElem?_of_mem hrow
    obtain ⟨j, hj⟩ := List.getElem?_of_mem hc
    refine ⟨i, j, c, ?_, hp⟩
    rw [elementAt, hi, Option.bind_some, hj]
  · rintro ⟨i, j, c, hc, hp⟩
    obtain ⟨row, hrow, hmem⟩ := mem_of_elementAt hc
    exact List.any_eq_true.2 ⟨row, hrow, List.any_eq_true.2 ⟨c, hmem, hp⟩⟩

/-- The transpose has an element of a kind when the rectangle has. -/
theorem any_transpose {rows : List (List β)} (h : Rect m n rows) (hm : 0 < m) (p : β → Bool) :
    (transpose rows).any (fun row => row.any p) = rows.any (fun row => row.any p) := by
  rw [Bool.eq_iff_iff, any_iff_elementAt, any_iff_elementAt]
  constructor
  · rintro ⟨i, j, c, hc, hp⟩
    rw [elementAt_transpose h hm] at hc
    exact ⟨j, i, c, hc, hp⟩
  · rintro ⟨i, j, c, hc, hp⟩
    rw [← elementAt_transpose h hm] at hc
    exact ⟨j, i, c, hc, hp⟩

/-! ## Products -/

section Products

variable [Add β] [Mul β] [Zero β]

/-- A product has the products of rows and columns as its elements. -/
theorem elementAt_mul (a b : Grid β) (i j : Nat) :
    elementAt (a.mul b) i j
      = a[i]?.bind (fun row => (transpose b)[j]?.map (Grid.dot row)) := by
  rw [elementAt, Grid.mul, List.getElem?_map]
  cases a[i]? with
  | none => rfl
  | some row => exact List.getElem?_map

variable (hcomm : ∀ x y : β, x * y = y * x)
include hcomm

theorem dot_comm (u v : List β) : Grid.dot u v = Grid.dot v u := by
  rw [Grid.dot, Grid.dot, List.zipWith_comm_of_comm hcomm]

/-- **The transpose of a product is the product of the transposes, the other way round.** -/
theorem transpose_mul {a b : Grid β} (ha : Rect m k a) (hb : Rect k n b) (hm : 0 < m) (hk : 0 < k)
    : transpose (a.mul b) = Grid.mul (transpose b) (transpose a) := by
  refine ((ha.mul hb hk).transpose hm).ext ((hb.transpose hk).mul (ha.transpose hm) hk) ?_
  intro i j
  rw [elementAt_transpose (ha.mul hb hk) hm, elementAt_mul, elementAt_mul,
    transpose_transpose ha hm hk]
  cases a[j]? with
  | none => cases (transpose b)[i]? <;> rfl
  | some row =>
      cases (transpose b)[i]? with
      | none => rfl
      | some column => exact congrArg some (dot_comm hcomm row column)

end Products

/-! ## Rows and columns -/

/-- A row turns into a column. -/
theorem transpose_row (row : List β) : transpose [row] = row.map (fun c => [c]) := by
  show List.zipWith List.cons row (List.replicate row.length []) = _
  induction row with
  | nil => rfl
  | cons c row ih =>
      rw [List.length_cons, List.replicate_succ, List.zipWith_cons_cons, ih, List.map_cons]

theorem flatten_transpose_row {rows : List (List β)} (h : Rect 1 n rows) :
    (transpose rows).flatten = rows.flatten := by
  obtain ⟨row, rfl⟩ := List.length_eq_one_iff.1 h.height
  rw [transpose_row, ← List.flatMap_def, List.flatMap_singleton', List.flatten_singleton]

/-- **A row has the same cells as the column that it turns into**, in the same order. -/
theorem flatten_transpose {rows : List (List β)} (h : Rect m n rows) (hm : 0 < m) (hn : 0 < n)
    (hvector : m = 1 ∨ n = 1) : (transpose rows).flatten = rows.flatten := by
  rcases hvector with rfl | rfl
  · exact flatten_transpose_row h
  · -- a column turns into a row, which turns back into it
    have hturned := flatten_transpose_row (h.transpose hm)
    rw [transpose_transpose h hm hn] at hturned
    exact hturned.symm

theorem Rect.length_flatten {rows : List (List β)} (h : Rect m n rows) :
    rows.flatten.length = m * n := by
  have hwidths : rows.map List.length = List.replicate rows.length n := by
    refine List.eq_replicate_iff.2 ⟨List.length_map _, ?_⟩
    intro width hwidth
    obtain ⟨row, hrow, rfl⟩ := List.mem_map.1 hwidth
    exact h.width row hrow
  rw [List.length_flatten, hwidths, List.sum_replicate_nat, h.height]

/-- Three cells are arranged like a row or a column that has three. -/
theorem transpose_arrangeLike {rows : Grid β} {cells : List β} (h : Rect m n rows) (hm : 0 < m)
    (hlength : cells.length = 3) (hvector : m = 1 ∧ n = 3 ∨ m = 3 ∧ n = 1) :
    transpose (Grid.arrangeLike rows cells) = Grid.arrangeLike (transpose rows) cells := by
  have hheight := h.height
  have hheight' := (h.transpose hm).height
  unfold Grid.arrangeLike
  rcases hvector with ⟨rfl, rfl⟩ | ⟨rfl, rfl⟩
  · rw [if_pos hheight, if_neg (by omega), transpose_row]
  · have hrow : Rect 1 3 [cells] := ⟨rfl, by simpa using hlength⟩
    rw [if_neg (by omega), if_pos hheight', ← transpose_row,
      transpose_transpose hrow (by omega) (by omega)]

end LinearCalc
