import LinearCalc.Proofs.Transposes.Values

set_option autoImplicit false

/-! # Rows times columns

A product of matrices asks once whether all cells of both are numbers, and whether all cells of the
result are. The dot product of a row of the one with a column of the other asks the same of these
cells only. All dot products together see every cell, so they are numbers just when the product is a
matrix (`multiply_of_dots`, `dots_of_multiply`).
-/

namespace LinearCalc

variable {β γ : Type} {m n k : Nat}

/-! ## Rows and columns -/

def rowAt (rows : List (List β)) (i : Nat) : List β := rows[i]?.getD []

/-- The elements of column `j`, from the top. -/
def columnAt (rows : List (List β)) (j : Nat) : List β := rows.filterMap (fun row => row[j]?)

theorem getElem?_eq_rowAt {rows : List (List β)} (h : Rect m n rows) {i : Nat} (hi : i < m) :
    rows[i]? = some (rowAt rows i) := by
  rw [rowAt, List.getElem?_eq_getElem (h.height.symm ▸ hi), Option.getD_some]

theorem length_rowAt {rows : List (List β)} (h : Rect m n rows) {i : Nat} (hi : i < m) :
    (rowAt rows i).length = n :=
  h.width _ (List.mem_of_getElem? (getElem?_eq_rowAt h hi))

theorem rowAt_map (f : β → γ) (rows : List (List β)) (i : Nat) :
    rowAt (rows.map (List.map f)) i = (rowAt rows i).map f := by
  rw [rowAt, rowAt, List.getElem?_map]
  cases rows[i]? <;> rfl

theorem columnAt_map (f : β → γ) (rows : List (List β)) (j : Nat) :
    columnAt (rows.map (List.map f)) j = (columnAt rows j).map f := by
  rw [columnAt, columnAt, List.filterMap_map, List.map_filterMap]
  exact congrArg (fun g => rows.filterMap g) (funext (fun _ => List.getElem?_map))

theorem columnAt_cons {row : List β} {j : Nat} {c : β} (h : row[j]? = some c)
    (rows : List (List β)) : columnAt (row :: rows) j = c :: columnAt rows j := by
  rw [columnAt, List.filterMap_cons, h, columnAt]

theorem getElem?_foldr {rows : List (List β)} (h : Rect m n rows) {j : Nat} (hj : j < n) :
    (rows.foldr (List.zipWith List.cons) (List.replicate n []))[j]? = some (columnAt rows j) := by
  induction rows generalizing m with
  | nil =>
      rw [List.foldr_nil, List.getElem?_replicate, if_pos hj]
      rfl
  | cons row rows ih =>
      have hrest : Rect rows.length n rows := ⟨rfl, fun r hr => h.width r (by simp [hr])⟩
      have hwidth : row.length = n := h.width row (by simp)
      have hfirst : row[j]? = some row[j] := List.getElem?_eq_getElem (hwidth.symm ▸ hj)
      rw [List.foldr_cons, List.getElem?_zipWith, ih hrest, hfirst, columnAt_cons hfirst]

/-- **The rows of the transpose are the columns.** -/
theorem rowAt_transpose {rows : List (List β)} (h : Rect m n rows) (hm : 0 < m) {j : Nat}
    (hj : j < n) : rowAt (transpose rows) j = columnAt rows j := by
  rw [rowAt, transpose, h.shape_eq hm, getElem?_foldr h hj, Option.getD_some]

theorem getElem?_columnAt {rows : List (List β)} (h : Rect m n rows) (hm : 0 < m) {j : Nat}
    (hj : j < n) (l : Nat) : (columnAt rows j)[l]? = elementAt rows l j := by
  rw [← rowAt_transpose h hm hj, ← elementAt_transpose h hm j l, elementAt,
    getElem?_eq_rowAt (h.transpose hm) hj, Option.bind_some]

theorem elementAt_mul_eq [Add β] [Mul β] [Zero β] {a b : Grid β} (ha : Rect m k a)
    (hb : Rect k n b) (hk : 0 < k) {i j : Nat} (hi : i < m) (hj : j < n) :
    elementAt (a.mul b) i j = some (Grid.dot (rowAt a i) (columnAt b j)) := by
  rw [elementAt_mul, getElem?_eq_rowAt ha hi, getElem?_eq_rowAt (hb.transpose hk) hj,
    rowAt_transpose hb hk hj]
  rfl

variable {α : Type} [Scalar α]

/-- A computed matrix in which no cell is what is not a number. -/
theorem Computed.ofGrid_eq_grid {cells : Grid α} (hcells : Rect m n cells)
    (h : ∀ i < m, ∀ j < n, ∀ v, elementAt cells i j = some v → Scalar.isNaN v = false) :
    ofGrid cells = grid cells := by
  refine if_neg (fun hany => ?_)
  obtain ⟨i, j, v, hv, hnan⟩ := (any_iff_elementAt _ _).1 hany
  obtain ⟨hi, hj⟩ := hcells.lt_of_elementAt hv
  rw [h i hi j hj v hv] at hnan
  cases hnan

/-! ## Dot products -/

namespace Value

variable {a b : List (List (Value α))} {x y : Grid α}

/-- The dot product of row `i` of the one with column `j` of the other. -/
def dotAt (a b : List (List (Value α))) (i j : Nat) : Computed α :=
  (matrix [rowAt a i]).dotProduct (matrix [columnAt b j])

/-- The numbers of a row are a row of the numbers. -/
theorem mapM_rowAt (h : (matrix a).numbers? = some x) (i : Nat) :
    (rowAt a i).mapM number? = some (rowAt x i) := by
  rw [mapM_eq_some_iff, ← rowAt_map, ← rowAt_map,
    (mapM_rows_eq_some_iff number? a x).1 h]

/-- The numbers of a column are a column of the numbers. -/
theorem mapM_columnAt (h : (matrix b).numbers? = some y) (j : Nat) :
    (columnAt b j).mapM number? = some (columnAt y j) := by
  rw [mapM_eq_some_iff, ← columnAt_map, ← columnAt_map,
    (mapM_rows_eq_some_iff number? b y).1 h]

/-- A matrix has numbers when each of its rows has. -/
theorem numbers?_isSome_of_rows (ha : Rect m n a)
    (h : ∀ i < m, ((rowAt a i).mapM number?).isSome = true) :
    (matrix a).numbers?.isSome = true := by
  have hrows : ∀ row ∈ a, (row.mapM number?).isSome = true := by
    intro row hrow
    obtain ⟨i, hi, rfl⟩ := List.getElem_of_mem hrow
    have hrow' := h i (ha.height ▸ hi)
    rwa [rowAt, List.getElem?_eq_getElem hi, Option.getD_some] at hrow'
  clear ha h
  induction a with
  | nil => rfl
  | cons row rows ih =>
      obtain ⟨first, hfirst⟩ := Option.isSome_iff_exists.1 (hrows row (by simp))
      obtain ⟨rest, hrest⟩ := Option.isSome_iff_exists.1 (ih (fun r hr => hrows r (by simp [hr])))
      have hrest' : rows.mapM (fun row => row.mapM number?) = some rest := hrest
      simp [numbers?, List.mapM_cons, hfirst, hrest']

theorem numbers?_row (row : List (Value α)) :
    (matrix [row]).numbers? = (row.mapM number?).map (fun cells => [cells]) := by
  rw [numbers?, List.mapM_cons]
  cases row.mapM number? <;> rfl

/-- **The dot product of two rows** of one length, whose cells must be numbers. -/
theorem dotProduct_rows {row row' : List (Value α)} (hlength : row.length = row'.length) :
    (matrix [row]).dotProduct (matrix [row'])
      = match row.mapM number?, row'.mapM number? with
        | some u, some v =>
          if Scalar.isNaN (Grid.dot u v) then .invalid else .scalar (Grid.dot u v)
        | _, _ => .invalid := by
  unfold dotProduct vectors? bothNumbers?
  rw [numbers?_row, numbers?_row]
  cases hu : row.mapM number? with
  | none => rfl
  | some u =>
      cases hv : row'.mapM number? with
      | none => rfl
      | some v =>
          have hrow : Rect 1 row.length [row] := ⟨rfl, by simp⟩
          -- the numbers are as many as the cells, so the lengths need not be asked for
          have hlengths : u.length = v.length := by
            have hu' := congrArg List.length ((mapM_eq_some_iff number? row u).1 hu)
            have hv' := congrArg List.length ((mapM_eq_some_iff number? row' v).1 hv)
            simp only [List.length_map] at hu' hv'
            omega
          simp [hlengths]

/-- What a dot product that is a number says of its row and its column. -/
theorem isSome_of_dotAt (ha : Rect m k a) (hb : Rect k n b) (hk : 0 < k) {i j : Nat} (hi : i < m)
    (hj : j < n) {v : α} (h : dotAt a b i j = .scalar v) :
    ((rowAt a i).mapM number?).isSome = true ∧ ((columnAt b j).mapM number?).isSome = true := by
  have hlength : (rowAt a i).length = (columnAt b j).length := by
    rw [length_rowAt ha hi, ← rowAt_transpose hb hk hj, length_rowAt (hb.transpose hk) hj]
  rw [dotAt, dotProduct_rows hlength] at h
  split at h
  · rename_i hrow hcolumn
    rw [hrow, hcolumn]
    exact ⟨rfl, rfl⟩
  · cases h

/-- **A dot product is the cell of the product**, unless that is not a number. -/
theorem dotAt_eq (ha : Rect m k a) (hb : Rect k n b) (hk : 0 < k)
    (hx : (matrix a).numbers? = some x) (hy : (matrix b).numbers? = some y) {i j : Nat}
    (hi : i < m) (hj : j < n) :
    ∃ v, elementAt (x.mul y) i j = some v ∧
      dotAt a b i j = if Scalar.isNaN v then .invalid else .scalar v := by
  have hlength : (rowAt a i).length = (columnAt b j).length := by
    rw [length_rowAt ha hi, ← rowAt_transpose hb hk hj, length_rowAt (hb.transpose hk) hj]
  refine ⟨_, elementAt_mul_eq (ha.mapM hx) (hb.mapM hy) hk hi hj, ?_⟩
  rw [dotAt, dotProduct_rows hlength, mapM_rowAt hx, mapM_columnAt hy]

/-! ## Products -/

theorem multiply_of_fits (hx : (matrix a).numbers? = some x) (hy : (matrix b).numbers? = some y)
    (hfits : (shape x).2 = (shape y).1) : (matrix a).multiply (matrix b) = .ofGrid (x.mul y) := by
  rw [multiply_matrix, bothNumbers?, hx, hy]
  exact if_pos hfits

theorem multiply_of_numbers (ha : Rect m k a) (hb : Rect k n b) (hm : 0 < m) (hk : 0 < k)
    (hx : (matrix a).numbers? = some x) (hy : (matrix b).numbers? = some y) :
    (matrix a).multiply (matrix b) = .ofGrid (x.mul y) := by
  refine multiply_of_fits hx hy ?_
  rw [(ha.mapM hx).shape_eq hm, (hb.mapM hy).shape_eq hk]

/-- Matrices whose sizes do not fit have no product. -/
theorem multiply_of_misfit {l : Nat} (ha : Rect m k a) (hb : Rect l n b) (hm : 0 < m) (hl : 0 < l)
    (hne : k ≠ l) : (matrix a).multiply (matrix b) = .invalid := by
  rw [multiply_matrix]
  split
  · rename_i x y hboth
    obtain ⟨hx, hy⟩ := bothNumbers?_eq_some hboth
    rw [(ha.mapM hx).shape_eq hm, (hb.mapM hy).shape_eq hl]
    exact if_neg hne
  · rfl

/-- **Where the product is a matrix, its cells are the dot products.** -/
theorem dots_of_multiply (ha : Rect m k a) (hb : Rect k n b) (hm : 0 < m) (hk : 0 < k)
    {cells : Grid α} (h : (matrix a).multiply (matrix b) = .grid cells) :
    Rect m n cells ∧ ∀ i < m, ∀ j < n, ∃ v, dotAt a b i j = .scalar v ∧
      Scalar.isNaN v = false ∧ elementAt cells i j = some v := by
  cases hboth : bothNumbers? (matrix a) (matrix b) with
  | none =>
      rw [multiply_matrix, hboth] at h
      cases h
  | some both =>
      obtain ⟨x, y⟩ := both
      obtain ⟨hx, hy⟩ := bothNumbers?_eq_some hboth
      have hown : NumberCells cells := by
        have hproduct := multiply_own (matrix a) (matrix b)
        rwa [h] at hproduct
      rw [multiply_of_numbers ha hb hm hk hx hy, Computed.ofGrid] at h
      -- a result with something that is not a number in it is no grid, so here all cells are
      -- numbers
      split at h
      · cases h
      · obtain rfl := Computed.grid.inj h
        refine ⟨(ha.mapM hx).mul (hb.mapM hy) hk, ?_⟩
        intro i hi j hj
        obtain ⟨v, hv, hdot⟩ := dotAt_eq ha hb hk hx hy hi hj
        obtain ⟨row, hrow, hmem⟩ := mem_of_elementAt hv
        have hnumber := hown row hrow v hmem
        rw [hnumber] at hdot
        exact ⟨v, hdot, hnumber, hv⟩

/-- **Where all dot products are numbers, the product is a matrix.** -/
theorem multiply_of_dots (ha : Rect m k a) (hb : Rect k n b) (hm : 0 < m) (hk : 0 < k)
    (hn : 0 < n) (h : ∀ i < m, ∀ j < n, ∃ v, dotAt a b i j = .scalar v) :
    ∃ cells, (matrix a).multiply (matrix b) = .grid cells := by
  -- the first column is there for every row to be looked at, and the first row for every column
  have hrows : (matrix a).numbers?.isSome = true := by
    refine numbers?_isSome_of_rows ha (fun i hi => ?_)
    obtain ⟨v, hv⟩ := h i hi 0 hn
    exact (isSome_of_dotAt ha hb hk hi hn hv).1
  have hcolumns : (matrix (transpose b)).numbers?.isSome = true := by
    refine numbers?_isSome_of_rows (hb.transpose hk) (fun j hj => ?_)
    obtain ⟨v, hv⟩ := h 0 hm j hj
    rw [rowAt_transpose hb hk hj]
    exact (isSome_of_dotAt ha hb hk hm hj hv).2
  rw [numbers?_transpose ((rectangular_iff b).2 ⟨k, n, hk, hn, hb⟩), Option.isSome_map] at hcolumns
  obtain ⟨x, hx⟩ := Option.isSome_iff_exists.1 hrows
  obtain ⟨y, hy⟩ := Option.isSome_iff_exists.1 hcolumns
  refine ⟨x.mul y, ?_⟩
  rw [multiply_of_numbers ha hb hm hk hx hy]
  refine Computed.ofGrid_eq_grid ((ha.mapM hx).mul (hb.mapM hy) hk) (fun i hi j hj v hv => ?_)
  obtain ⟨v', hv', hdot⟩ := dotAt_eq ha hb hk hx hy hi hj
  obtain ⟨w, hw⟩ := h i hi j hj
  rw [hv] at hv'
  obtain rfl := Option.some.inj hv'
  cases hnan : Scalar.isNaN v with
  | false => rfl
  | true =>
      rw [hw, if_pos hnan] at hdot
      cases hdot

/-- The product of two matrices is a matrix, or makes no sense. -/
theorem multiply_matrix_cases (a b : List (List (Value α))) :
    (∃ cells, (matrix a).multiply (matrix b) = .grid cells) ∨
      (matrix a).multiply (matrix b) = .invalid := by
  rw [multiply_matrix]
  split
  · split
    · unfold Computed.ofGrid
      split
      · exact .inr rfl
      · exact .inl ⟨_, rfl⟩
    · exact .inr rfl
  · exact .inr rfl

end Value
end LinearCalc
