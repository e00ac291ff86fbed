import LinearCalc.Proofs.NotANumber
import LinearCalc.Proofs.Products.Values
import LinearCalc.Proofs.Values.Results

set_option autoImplicit false

/-! # The product of two matrices

The product of a matrix of `m` rows with a matrix of `n` columns has `m` rows and `n` columns. Its
cell in row `i` and column `j` is the dot product of row `i` of the first matrix with column `j` of
the second, as it would be evaluated on its own, and there is a product just when all these dot
products are numbers (`product_of_rows_and_columns`). Nothing is needed of the arithmetic: the same
products are added up in the same order.
-/

namespace LinearCalc
namespace Expr

/-- The dot product of row `i` of the first matrix with column `j` of the second, typed at `s`. -/
def dotAt (s : Span) (rows rows' : List (List (Expr Float))) (i j : Nat) : Expr Float :=
  binary .dot s (matrix [rowAt rows i] s) (matrix [columnAt rows' j] s) s

/-- The expression evaluates to `v`, and that is a number. -/
def EvaluatesTo (e : Expr Float) (v : Float) : Prop :=
  v.isNaN = false ∧ ∃ s, e.simplify = number v s

section Rows

variable {rows rows' : List (List (Expr Float))} {m n k : Nat}

theorem value_row {row : List (Expr Float)} (h : 0 < row.length) (s : Span) :
    (matrix [row] s).value = .matrix [row.map value] := by
  have hrect : rectangular [row] = true :=
    (rectangular_iff [row]).2 ⟨1, row.length, by omega, h, rfl, by simp⟩
  rw [value_matrix, rectangular_map, if_pos hrect]
  rfl

/-- The dot product of a row with a column, by what their elements mean. -/
theorem simplify_dotAt (h : Rect m k rows) (h' : Rect k n rows') (hk : 0 < k) {i j : Nat}
    (hi : i < m) (hj : j < n) (s : Span) :
    (dotAt s rows rows' i j).simplify
      = (Value.dotAt (rows.map (List.map value)) (rows'.map (List.map value)) i j).expr s
          (matrix [rowAt rows i] s).simplify := by
  have hrow : 0 < (rowAt rows i).length := by rwa [length_rowAt h hi]
  have hcolumn : 0 < (columnAt rows' j).length := by
    rwa [← rowAt_transpose h' hk hj, length_rowAt (h'.transpose hk) hj]
  rw [dotAt, simplify_binary (fun _ => rfl), value_row hrow, value_row hcolumn, Value.dotAt,
    rowAt_map, columnAt_map]
  rfl

/-- **A dot product evaluates to a number** when its value is one. -/
theorem evaluatesTo_dotAt (h : Rect m k rows) (h' : Rect k n rows') (hk : 0 < k) {i j : Nat}
    (hi : i < m) (hj : j < n) (s : Span) (v : Float) :
    EvaluatesTo (dotAt s rows rows' i j) v ↔ Scalar.isNaN v = false ∧
      Value.dotAt (rows.map (List.map value)) (rows'.map (List.map value)) i j = .scalar v := by
  rw [EvaluatesTo, simplify_dotAt h h' hk hi hj]
  refine and_congr_right (fun hv => ?_)
  have hown := Value.dotProduct_own (.matrix [rowAt (rows.map (List.map value)) i])
    (.matrix [columnAt (rows'.map (List.map value)) j])
  rw [← Value.dotAt] at hown
  constructor
  · rintro ⟨t, ht⟩
    cases hdot : Value.dotAt (rows.map (List.map value)) (rows'.map (List.map value)) i j with
    | scalar w =>
        rw [hdot] at ht
        rw [(number.inj ht).1]
    | grid cells =>
        rw [hdot] at ht
        cases ht
    | unchanged =>
        rw [hdot] at hown
        cases hown
    | invalid =>
        -- what has no value is not a number
        rw [hdot] at ht
        rw [← (number.inj ht).1] at hv
        exact absurd (isNaN_nan.symm.trans hv) (by decide)
  · intro hdot
    rw [hdot]
    exact ⟨s, rfl⟩

/-- The product of two matrices, by what their elements mean. -/
theorem simplify_product (h : rectangular rows = true) (h' : rectangular rows' = true)
    (os p q u : Span) :
    (binary .mul os (matrix rows p) (matrix rows' q) u).simplify
      = ((Value.matrix (rows.map (List.map value))).multiply
          (.matrix (rows'.map (List.map value)))).expr u (matrix rows p).simplify := by
  rw [simplify_binary (fun _ => rfl), value_matrix, value_matrix, rectangular_map, rectangular_map,
    if_pos h, if_pos h']
  rfl

/-- The product of two matrices is a matrix, or has no value. -/
theorem product_cases (h : rectangular rows = true) (h' : rectangular rows' = true)
    (os p q u : Span) :
    (∃ out t, (binary .mul os (matrix rows p) (matrix rows' q) u).simplify = matrix out t) ∨
      (binary .mul os (matrix rows p) (matrix rows' q) u).simplify = invalid u := by
  rw [simplify_product h h']
  rcases Value.multiply_matrix_cases (rows.map (List.map value)) (rows'.map (List.map value)) with
    ⟨cells, hgrid⟩ | hinvalid
  · rw [hgrid]
    exact .inl ⟨_, u, rfl⟩
  · rw [hinvalid]
    exact .inr rfl

/-- **The cells of a product are the dot products** of rows and columns. -/
theorem cells_of_product (h : Rect m k rows) (h' : Rect k n rows') (hm : 0 < m) (hk : 0 < k)
    (hn : 0 < n) (os p q u s : Span) {out : List (List (Expr Float))} {t : Span}
    (hout : (binary .mul os (matrix rows p) (matrix rows' q) u).simplify = matrix out t) :
    Rect m n out ∧ ∀ i < m, ∀ j < n, ∃ v, EvaluatesTo (dotAt s rows rows' i j) v ∧
      elementAt out i j = some (number v u) := by
  rw [simplify_product ((rectangular_iff rows).2 ⟨m, k, hm, hk, h⟩)
    ((rectangular_iff rows').2 ⟨k, n, hk, hn, h'⟩)] at hout
  rcases Value.multiply_matrix_cases (rows.map (List.map value)) (rows'.map (List.map value)) with
    ⟨cells, hgrid⟩ | hinvalid
  · obtain ⟨hrect, hentries⟩ := Value.dots_of_multiply (h.map value) (h'.map value) hm hk hgrid
    rw [hgrid] at hout
    obtain ⟨rfl, -⟩ := matrix.inj hout
    refine ⟨hrect.map _, fun i hi j hj => ?_⟩
    obtain ⟨v, hdot, hnumber, hentry⟩ := hentries i hi j hj
    refine ⟨v, (evaluatesTo_dotAt h h' hk hi hj s v).2 ⟨hnumber, hdot⟩, ?_⟩
    rw [Grid.map, elementAt_map, hentry, Option.map_some]
  · rw [hinvalid] at hout
    cases hout

/-- **There is a product when all dot products are numbers.** -/
theorem product_of_dots (h : Rect m k rows) (h' : Rect k n rows') (hm : 0 < m) (hk : 0 < k)
    (hn : 0 < n) (os p q u s : Span)
    (hdots : ∀ i < m, ∀ j < n, ∃ v, EvaluatesTo (dotAt s rows rows' i j) v) :
    ∃ out t, (binary .mul os (matrix rows p) (matrix rows' q) u).simplify = matrix out t := by
  have hvalues : ∀ i < m, ∀ j < n, ∃ v,
      Value.dotAt (rows.map (List.map value)) (rows'.map (List.map value)) i j = .scalar v := by
    intro i hi j hj
    obtain ⟨v, hv⟩ := hdots i hi j hj
    exact ⟨v, ((evaluatesTo_dotAt h h' hk hi hj s v).1 hv).2⟩
  obtain ⟨cells, hgrid⟩ :=
    Value.multiply_of_dots (h.map value) (h'.map value) hm hk hn hvalues
  rw [simplify_product ((rectangular_iff rows).2 ⟨m, k, hm, hk, h⟩)
    ((rectangular_iff rows').2 ⟨k, n, hk, hn, h'⟩), hgrid]
  exact ⟨_, u, rfl⟩

end Rows

/-- **A product is made of the dot products of rows and columns.** Where the sizes fit, the product
of two matrices is a matrix just when all these dot products are numbers, which then are its cells,
and has no value otherwise; where they do not fit, it has none. The cells are the numbers of the dot
products bit by bit, because both are added up from the left. -/
theorem product_of_rows_and_columns {rows rows' : List (List (Expr Float))} {m k l n : Nat}
    (h : rectangular rows = true) (h' : rectangular rows' = true) (hshape : shape rows = (m, k))
    (hshape' : shape rows' = (l, n)) (os p q u s : Span) {product : Expr Float}
    (hproduct : (binary .mul os (matrix rows p) (matrix rows' q) u).simplify = product) :
    (k = l →
      ((∃ out t, product = matrix out t) ↔
        ∀ i < m, ∀ j < n, ∃ v, EvaluatesTo (dotAt s rows rows' i j) v) ∧
      (∀ out t, product = matrix out t → Rect m n out ∧
        ∀ i < m, ∀ j < n, ∃ v, EvaluatesTo (dotAt s rows rows' i j) v ∧
          elementAt out i j = some (number v u)) ∧
      ((¬ ∃ out t, product = matrix out t) → product = invalid u)) ∧
    (k ≠ l → product = invalid u) := by
  subst hproduct
  obtain ⟨m', k', hm, hk, hrect⟩ := (rectangular_iff rows).1 h
  obtain ⟨l', n', hl, hn, hrect'⟩ := (rectangular_iff rows').1 h'
  rw [hrect.shape_eq hm] at hshape
  rw [hrect'.shape_eq hl] at hshape'
  obtain ⟨rfl, rfl⟩ := Prod.mk.inj hshape
  obtain ⟨rfl, rfl⟩ := Prod.mk.inj hshape'
  refine ⟨?fits, ?misfit⟩
  case fits =>
    rintro rfl
    -- one and the same fact gives the cells, and that the dot products are numbers
    have hcells := fun out t (hout : _ = matrix out t) =>
      cells_of_product hrect hrect' hm hk hn os p q u s hout
    refine ⟨⟨?_, product_of_dots hrect hrect' hm hk hn os p q u s⟩, hcells, ?_⟩
    · rintro ⟨out, t, hout⟩ i hi j hj
      obtain ⟨v, hv, -⟩ := (hcells out t hout).2 i hi j hj
      exact ⟨v, hv⟩
    · intro hno
      exact (product_cases h h' os p q u).resolve_left hno
  case misfit =>
    intro hne
    rw [simplify_product h h',
      Value.multiply_of_misfit (hrect.map value) (hrect'.map value) hm hl hne]
    rfl

/-- The rows of `[1, (2); 3, 4]`. -/
def mixedSquare : List (List (Expr Float)) :=
  [[number 1 ⟨1, 2⟩, paren (number 2 ⟨5, 6⟩) ⟨4, 7⟩], [number 3 ⟨9, 10⟩, number 4 ⟨12, 13⟩]]

/-- The rows of `[5; 1/0]`, of which the second has no value. -/
def brokenColumn : List (List (Expr Float)) :=
  [[number 5 ⟨18, 19⟩],
    [binary .div ⟨22, 23⟩ (number 1 ⟨21, 22⟩) (number 0 ⟨23, 24⟩) ⟨21, 24⟩]]

/-- The rows of `[5; 6]`. -/
def plainColumn : List (List (Expr Float)) := [[number 5 ⟨18, 19⟩], [number 6 ⟨21, 22⟩]]

theorem product_of_rows_and_columns_broken :
    (rectangular mixedSquare = true ∧ rectangular brokenColumn = true ∧
      shape mixedSquare = (2, 2) ∧ shape brokenColumn = (2, 1)) ∧
    ((∃ out t, (binary .mul ⟨15, 16⟩ (matrix mixedSquare ⟨0, 14⟩) (matrix brokenColumn ⟨17, 25⟩)
        ⟨0, 25⟩).simplify = matrix out t) ↔
      ∀ i < 2, ∀ j < 1, ∃ v, EvaluatesTo (dotAt ⟨0, 25⟩ mixedSquare brokenColumn i j) v) ∧
    (binary .mul ⟨15, 16⟩ (matrix brokenColumn ⟨17, 25⟩) (matrix mixedSquare ⟨0, 14⟩)
      ⟨0, 25⟩).simplify = invalid ⟨0, 25⟩ ∧
    -- without the quotient there is a product
    let product := (binary .mul ⟨15, 16⟩ (matrix mixedSquare ⟨0, 14⟩) (matrix plainColumn ⟨17, 23⟩)
      ⟨0, 23⟩).simplify
    product.numbers? = some [[17], [39]] ∧
    ∃ out t, product = matrix out t ∧ Rect 2 1 out ∧
      ∀ i < 2, ∀ j < 1, ∃ v, EvaluatesTo (dotAt ⟨0, 23⟩ mixedSquare plainColumn i j) v ∧
        elementAt out i j = some (number v ⟨0, 23⟩) := by
  have hsquare : rectangular mixedSquare = true := rfl
  have hcolumn : rectangular brokenColumn = true := rfl
  have hplain : rectangular plainColumn = true := rfl
  have hshape : shape mixedSquare = (2, 2) := rfl
  have hshape' : shape brokenColumn = (2, 1) := rfl
  obtain ⟨hfits, -⟩ := product_of_rows_and_columns hsquare hcolumn hshape hshape' ⟨15, 16⟩ ⟨0, 14⟩
    ⟨17, 25⟩ ⟨0, 25⟩ ⟨0, 25⟩ rfl
  obtain ⟨-, hmisfit⟩ := product_of_rows_and_columns hcolumn hsquare hshape' hshape ⟨15, 16⟩
    ⟨17, 25⟩ ⟨0, 14⟩ ⟨0, 25⟩ ⟨0, 25⟩ rfl
  refine ⟨⟨hsquare, hcolumn, hshape, hshape'⟩, (hfits rfl).1, hmisfit (by decide), ?_⟩
  intro product
  obtain ⟨hproduct, -⟩ := product_of_rows_and_columns hsquare hplain hshape rfl ⟨15, 16⟩
    ⟨0, 14⟩ ⟨17, 23⟩ ⟨0, 23⟩ ⟨0, 23⟩ (rfl : _ = product)
  obtain ⟨-, hcells, hnone⟩ := hproduct rfl
  have hnumbers : product.numbers? = some [[17], [39]] := by decide +kernel
  refine ⟨hnumbers, ?_⟩
  by_cases hmatrix : ∃ out t, product = matrix out t
  · obtain ⟨out, t, hout⟩ := hmatrix
    exact ⟨out, t, hout, hcells out t hout⟩
  · rw [hnone hmatrix] at hnumbers
    cases hnumbers

end Expr
end LinearCalc
