import LinearCalc.Proofs.Cellwise.Values
import LinearCalc.Proofs.Transposes

set_option autoImplicit false

/-! # Whole matrices and single cells

There are two ways to add matrices: to evaluate their elements and add the numbers of the one to
those of the other, or to write a matrix whose elements are the sums and to evaluate these one by
one. Both give the same numbers, and where the one gives none, the other does not either; so do
differences, multiples and quotients (`cell_by_cell`).
-/

namespace LinearCalc
namespace Expr

/-- The result of the first expression has the numbers that the elements of the second, a matrix,
evaluate to, wherever the two stand in a text. -/
def ResultNumbers (x y : Expr Float) : Prop :=
  ∀ x' y' : Expr Float, x'.erase = x.erase → y'.erase = y.erase →
    x'.simplify.numbers? = y'.numbers?

theorem ResultNumbers.numbers?_eq {x y : Expr Float} (h : ResultNumbers x y) :
    x.simplify.numbers? = y.numbers? := h x y rfl rfl

/-! ## Numbers and values -/

section Numbers

variable {α : Type} [Scalar α]

/-- The numbers in a matrix are those of its value. -/
theorem numbers?_eq_value (rows : List (List (Expr α))) (s : Span) :
    (matrix rows s).numbers? = (matrix rows s).value.numbers? := by
  rw [numbers?, value]
  by_cases hrows : rectangular rows = true
  · rw [if_pos hrows, if_pos hrows, valueRows_eq_map, Value.numbers?, List.mapM_map]
    congr 1
    funext row
    rw [Function.comp_apply, List.mapM_map]
    rfl
  · rw [if_neg hrows, if_neg hrows]
    rfl

/-- The numbers in a result are those of its value. -/
theorem numbers?_simplify (e : Expr α) : e.simplify.numbers? = e.value.numbers? := by
  rcases simplify_kind e with ⟨v, s, htree, hvalue⟩ | ⟨rows, s, -, htree, -⟩
  · rw [htree, hvalue]
    rfl
  · rw [← value_simplify e, htree, numbers?_eq_value]

end Numbers

theorem resultNumbers_of_value_eq {x : Expr Float} {rows : List (List (Expr Float))} {s : Span}
    (h : x.value.numbers? = (matrix rows s).value.numbers?) : ResultNumbers x (matrix rows s) := by
  intro x' y' hx hy
  obtain ⟨rows', s', rfl⟩ : ∃ rows' s', y' = matrix rows' s' := by
    cases y' with
    | matrix rows' s' => exact ⟨rows', s', rfl⟩
    | _ => simp at hy
  rw [numbers?_simplify, numbers?_eq_value, value_eq_of_erase_eq hx, value_eq_of_erase_eq hy, h]

/-! ## Matrices of operations -/

variable {rows rows' : List (List (Expr Float))}

/-- What a matrix of changed elements means. -/
theorem value_matrix_map {g : Expr Float → Expr Float} (g' : Value Float → Value Float)
    (hg : ∀ e, (g e).value = g' e.value) (h : rectangular rows = true) (s : Span) :
    (matrix (Grid.map g rows) s).value = .matrix (Grid.map g' (rows.map (List.map value))) := by
  have hcells : List.map (List.map value) (Grid.map g rows)
      = Grid.map g' (rows.map (List.map value)) := by
    simp [Grid.map, Function.comp_def, hg]
  rw [value_matrix, hcells, Grid.map, rectangular_map, rectangular_map, if_pos h]

/-- What a matrix of combined elements means. -/
theorem value_matrix_zipWith {g : Expr Float → Expr Float → Expr Float}
    (g' : Value Float → Value Float → Value Float)
    (hg : ∀ e e', (g e e').value = g' e.value e'.value) {m n : Nat} (hm : 0 < m) (hn : 0 < n)
    (h : Rect m n rows) (h' : Rect m n rows') (s : Span) :
    (matrix (Grid.zipWith g rows rows') s).value
      = .matrix (Grid.zipWith g' (rows.map (List.map value)) (rows'.map (List.map value))) := by
  have hcells : List.map (List.map value) (Grid.zipWith g rows rows')
      = Grid.zipWith g' (rows.map (List.map value)) (rows'.map (List.map value)) := by
    simp [Grid.zipWith, List.map_zipWith, List.zipWith_map, hg]
  have hrect : rectangular (Grid.zipWith g rows rows') = true :=
    (rectangular_iff _).2 ⟨m, n, hm, hn, h.zipWith g h'⟩
  rw [value_matrix, rectangular_map, if_pos hrect, hcells]

/-! ## Agreement -/

/-- Sums and differences: an operation that goes cell by cell. -/
theorem resultNumbers_elementwise {op : Operator} (hop : op ≠ .pow) {f : Float → Float → Float}
    (happly : ∀ x y : Value Float, op.apply x y = x.elementwise f y)
    (hf : ∀ {u v : Float}, u.isNaN = true ∨ v.isNaN = true → (f u v).isNaN = true)
    (h : rectangular rows = true) (h' : rectangular rows' = true)
    (hshape : shape rows = shape rows') :
    ResultNumbers (operation op (matrix rows .nowhere) (matrix rows' .nowhere))
      (matrix (Grid.zipWith (operation op) rows rows') .nowhere) := by
  obtain ⟨m, n, hm, hn, hrect⟩ := (rectangular_iff rows).1 h
  obtain ⟨m', n', hm', -, hrect'⟩ := (rectangular_iff rows').1 h'
  rw [hrect.shape_eq hm, hrect'.shape_eq hm'] at hshape
  obtain ⟨rfl, rfl⟩ := Prod.mk.inj hshape
  have hcell : ∀ e e' : Expr Float, (operation op e e').value
      = (e.value.elementwise f e'.value).value e.value := by
    intro e e'
    rw [value_operation hop, happly]
  refine resultNumbers_of_value_eq ?_
  rw [hcell, value_matrix_zipWith (fun x y => (x.elementwise f y).value x) hcell hm hn hrect hrect',
    value_matrix, value_matrix, rectangular_map, rectangular_map, if_pos h, if_pos h']
  exact Value.numbers?_elementwise isNaN_nan hf hm (hrect.map value) (hrect'.map value)

/-- **Whole matrices are added, subtracted, multiplied and divided like their cells**: for two
matrices of one shape, whatever their elements are, and an expression `c` that evaluates to a
number. A result has numbers just when all results of the cells do, and then these: one cell without
a value leaves the whole operation without one. -/
theorem cell_by_cell (h : rectangular rows = true) (h' : rectangular rows' = true)
    (hshape : shape rows = shape rows') {c : Expr Float} {v : Float} {t : Span}
    (hc : c.simplify = number v t) :
    ResultNumbers (operation .add (matrix rows .nowhere) (matrix rows' .nowhere))
      (matrix (Grid.zipWith (operation .add) rows rows') .nowhere) ∧
    ResultNumbers (operation .sub (matrix rows .nowhere) (matrix rows' .nowhere))
      (matrix (Grid.zipWith (operation .sub) rows rows') .nowhere) ∧
    ResultNumbers (operation .mul c (matrix rows .nowhere))
      (matrix (Grid.map (operation .mul c) rows) .nowhere) ∧
    ResultNumbers (operation .mul (matrix rows .nowhere) c)
      (matrix (Grid.map (operation .mul c) rows) .nowhere) ∧
    ResultNumbers (operation .div (matrix rows .nowhere) c)
      (matrix (Grid.map (fun e => operation .div e c) rows) .nowhere) := by
  have hvc : c.value = .scalar v := by
    rw [← value_simplify c, hc, value]
  have hvrows : (matrix rows .nowhere).value = .matrix (rows.map (List.map value)) := by
    rw [value_matrix, rectangular_map, if_pos h]
  have hscaled : ∀ e : Expr Float, (operation .mul c e).value
      = ((Value.scalar v).multiply e.value).value (.scalar v) := by
    intro e
    rw [value_operation (by decide), hvc]
    rfl
  have hdivided : ∀ e : Expr Float, (operation .div e c).value
      = (e.value.divide (.scalar v)).value e.value := by
    intro e
    rw [value_operation (by decide), hvc]
    rfl
  have hmultiple := Value.numbers?_scaled isNaN_nan isNaN_mul float_mul_comm v
    (rows.map (List.map value))
  have hmultiples := value_matrix_map
    (fun x => ((Value.scalar v).multiply x).value (.scalar v)) hscaled h .nowhere
  have hquotients := value_matrix_map
    (fun x => (x.divide (.scalar v)).value x) hdivided h .nowhere
  refine ⟨?sum, ?difference, ?multiple, ?exchanged, ?quotient⟩
  case sum =>
    exact resultNumbers_elementwise (by decide) (fun _ _ => rfl) isNaN_add h h' hshape
  case difference =>
    exact resultNumbers_elementwise (by decide) (fun _ _ => rfl) isNaN_sub h h' hshape
  case multiple =>
    refine resultNumbers_of_value_eq ?_
    rw [hscaled, hmultiples, hvrows]
    exact hmultiple _
  case exchanged =>
    -- wherever the factor was typed, it is on the right of every product
    refine resultNumbers_of_value_eq ?_
    rw [value_operation (by decide), hmultiples, hvc, hvrows]
    exact hmultiple _
  case quotient =>
    have hrect : (Value.matrix (rows.map (List.map value))).Rectangular := by
      rw [Value.Rectangular, rectangular_map, h]
    refine resultNumbers_of_value_eq ?_
    rw [hdivided, hquotients, hvrows]
    exact Value.numbers?_divided isNaN_nan isNaN_div v hrect _

/-- The elements of `[1, (2)]`. -/
def typedPair : List (List (Expr Float)) :=
  [[number 1 ⟨1, 2⟩, paren (number 2 ⟨5, 6⟩) ⟨4, 7⟩]]

/-- The elements of `[3, ]`, of which the second is missing. -/
def gappedPair : List (List (Expr Float)) :=
  [[number 3 ⟨1, 2⟩, placeholder ⟨4, 4⟩]]

/-- The elements of `[3, 4]`. -/
def plainPair : List (List (Expr Float)) := [[number 3 ⟨1, 2⟩, number 4 ⟨4, 5⟩]]

theorem cell_by_cell_gap :
    (rectangular typedPair = true ∧ rectangular gappedPair = true ∧
      shape typedPair = shape gappedPair ∧
      (number 0 ⟨9, 10⟩ : Expr Float).simplify = number 0 ⟨9, 10⟩) ∧
    ResultNumbers (operation .add (matrix typedPair .nowhere) (matrix gappedPair .nowhere))
      (matrix (Grid.zipWith (operation .add) typedPair gappedPair) .nowhere) ∧
    ResultNumbers (operation .div (matrix typedPair .nowhere) (number 0 ⟨9, 10⟩))
      (matrix (Grid.map (fun e => operation .div e (number 0 ⟨9, 10⟩)) typedPair) .nowhere) ∧
    -- with no element missing and another number than zero, there are numbers
    (operation .add (matrix typedPair .nowhere) (matrix plainPair .nowhere)).simplify.numbers?
      = some [[4, 6]] ∧
    (operation .sub (matrix typedPair .nowhere) (matrix plainPair .nowhere)).simplify.numbers?
      = some [[-2, -2]] ∧
    (operation .mul (number 2 ⟨9, 10⟩) (matrix typedPair .nowhere)).simplify.numbers?
      = some [[2, 4]] ∧
    (operation .mul (matrix typedPair .nowhere) (number 2 ⟨9, 10⟩)).simplify.numbers?
      = some [[2, 4]] ∧
    (operation .div (matrix typedPair .nowhere) (number 2 ⟨9, 10⟩)).simplify.numbers?
      = some [[0.5, 1]] := by
  have hzero : (number 0 ⟨9, 10⟩ : Expr Float).simplify = number 0 ⟨9, 10⟩ := rfl
  have htwo : (number 2 ⟨9, 10⟩ : Expr Float).simplify = number 2 ⟨9, 10⟩ := rfl
  have hpair : rectangular typedPair = true := rfl
  have hgapped : rectangular gappedPair = true := rfl
  have hplain : rectangular plainPair = true := rfl
  have hshape : shape typedPair = shape gappedPair := by decide
  have hshape' : shape typedPair = shape plainPair := by decide
  obtain ⟨hsum, -, -, -, hquotient⟩ := cell_by_cell hpair hgapped hshape hzero
  obtain ⟨hadd, hsub, hmultiple, hexchanged, hhalf⟩ := cell_by_cell hpair hplain hshape' htwo
  exact ⟨⟨hpair, hgapped, hshape, hzero⟩, hsum, hquotient,
    hadd.numbers?_eq.trans (by decide +kernel), hsub.numbers?_eq.trans (by decide +kernel),
    hmultiple.numbers?_eq.trans (by decide +kernel),
    hexchanged.numbers?_eq.trans (by decide +kernel), hhalf.numbers?_eq.trans (by decide +kernel)⟩

end Expr
end LinearCalc
