import LinearCalc.Plot
import LinearCalc.Proofs.Values.Results
import Mathlib.Data.List.Forall2

set_option autoImplicit false

/-! # Values that stand for vectors

Which values stand for vectors of the plane, and for which ones (`StandsFor`): matrices of one or
two rows, with a vector for each column. Reading vectors off an expression finds just those of its
value (`Expr.vectors?_eq_some_iff`).
-/

namespace LinearCalc

/-- A cell has a number as its value. -/
def Expr.IsWorth (cell : Expr Float) (x : Float) : Prop :=
  ∃ s, cell.simplify = .number x s ∧ x.isNaN = false

/-- A matrix of one or two rows, all of whose cells are worth numbers, stands for a vector for each
column. The first row holds their `x`, and the second, if there is one, their `y`. -/
inductive StandsFor : Expr Float → List (Position Float) → Prop where
  | row {xs : List (Expr Float)} {s : Span} {vectors : List (Position Float)}
      (ne : xs ≠ []) (x : List.Forall₂ Expr.IsWorth xs (vectors.map Position.x))
      (y : ∀ v ∈ vectors, v.y = 0) : StandsFor (.matrix [xs] s) vectors
  | rows {xs ys : List (Expr Float)} {s : Span} {vectors : List (Position Float)}
      (ne : xs ≠ []) (x : List.Forall₂ Expr.IsWorth xs (vectors.map Position.x))
      (y : List.Forall₂ Expr.IsWorth ys (vectors.map Position.y)) :
      StandsFor (.matrix [xs, ys] s) vectors

/-! ## Rows and columns -/

/-- Vectors that are taken apart into their `x` and their `y` are put together again. -/
theorem Grid.vectors?_coordinates (vectors : List (Position Float)) :
    Grid.vectors? [vectors.map Position.x, vectors.map Position.y] = some vectors := by
  rw [Grid.vectors?, List.zipWith_map, List.zipWith_self, List.map_id'']
  intro v
  rfl

/-- Numbers that are put together into vectors are their `x` and their `y`. -/
theorem map_zipWith_position {xs ys : List Float} (h : xs.length = ys.length) :
    (List.zipWith Position.mk xs ys).map Position.x = xs
      ∧ (List.zipWith Position.mk xs ys).map Position.y = ys := by
  rw [← List.map_uncurry_zip_eq_zipWith, List.map_map, List.map_map]
  exact ⟨List.map_fst_zip (Nat.le_of_eq h), List.map_snd_zip (Nat.le_of_eq h.symm)⟩

namespace Expr

/-! ## Numbers -/

/-- The numbers of cells are what they are worth. -/
theorem number?_eq_some_iff (cell : Expr Float) (x : Float) :
    cell.value.number? = some x ↔ cell.IsWorth x := by
  unfold IsWorth
  rcases simplify_kind cell with ⟨v, s, htree, hvalue⟩ | ⟨rows, s, -, htree, hvalue⟩
  · rw [htree, hvalue]
    constructor
    · intro h
      obtain ⟨hnumber, hv⟩ := Option.ite_none_left_eq_some.1 h
      cases hv
      exact ⟨s, rfl, Bool.eq_false_iff.2 hnumber⟩
    · rintro ⟨s', hv, hnumber⟩
      cases hv
      exact if_neg (Bool.eq_false_iff.1 hnumber)
  · rw [htree, hvalue]
    simp [Value.number?]

theorem mapM_number?_eq_some_iff (row : List (Expr Float)) (xs : List Float) :
    row.mapM (fun c => c.value.number?) = some xs ↔ List.Forall₂ IsWorth row xs := by
  rw [mapM_eq_some_iff, ← List.forall₂_eq_eq_eq, List.forall₂_map_left_iff,
    List.forall₂_map_right_iff]
  simp only [number?_eq_some_iff]

/-- The numbers of a matrix are what its cells are worth, if it is a rectangle. -/
theorem numbers?_matrix_eq_some_iff (rows : List (List (Expr Float))) (s : Span)
    (cells : Grid Float) :
    (matrix rows s).numbers? = some cells
      ↔ rectangular rows = true ∧ List.Forall₂ (List.Forall₂ IsWorth) rows cells := by
  rw [numbers?, Option.ite_none_right_eq_some, mapM_eq_some_iff, ← List.forall₂_eq_eq_eq,
    List.forall₂_map_left_iff, List.forall₂_map_right_iff]
  simp only [mapM_number?_eq_some_iff]

/-! ## Vectors -/

variable {rows : List (List (Expr Float))} {s : Span} {vectors : List (Position Float)}

/-- A matrix stands for the vectors that its numbers stand for. -/
theorem standsFor_of_cells {cells : Grid Float} (hrows : rectangular rows = true)
    (hcells : List.Forall₂ (List.Forall₂ IsWorth) rows cells)
    (hvectors : cells.vectors? = some vectors) : StandsFor (matrix rows s) vectors := by
  cases hcells with
  | nil => cases hvectors
  | @cons xs us _ _ hx hcells =>
      obtain ⟨hne, hlengths⟩ := rectangular_cons.1 hrows
      cases hcells with
      | nil =>
          cases hvectors
          refine .row hne ?_ ?_
          · simpa using hx
          · simp
      | @cons ys vs _ _ hy hcells =>
          cases hcells with
          | nil =>
              cases hvectors
              -- `zipWith` drops nothing, since the rows are as long as each other
              have hlength : us.length = vs.length := by
                rw [← hx.length_eq, ← hy.length_eq, hlengths ys (by simp)]
              obtain ⟨hxs, hys⟩ := map_zipWith_position hlength
              exact .rows hne (hxs.symm ▸ hx) (hys.symm ▸ hy)
          | cons => cases hvectors

/-- A matrix that stands for vectors has numbers that stand for them. -/
theorem cells_of_standsFor (h : StandsFor (matrix rows s) vectors) :
    ∃ cells : Grid Float, List.Forall₂ (List.Forall₂ IsWorth) rows cells
      ∧ cells.vectors? = some vectors := by
  cases h with
  | row ne x y =>
      refine ⟨[vectors.map Position.x], .cons x .nil, ?_⟩
      rw [Grid.vectors?, List.map_map, List.map_congr_left, List.map_id]
      intro v hv
      obtain ⟨vx, vy⟩ := v
      exact congrArg (Position.mk vx) (y _ hv).symm
  | rows ne x y => exact ⟨_, .cons x (.cons y .nil), Grid.vectors?_coordinates vectors⟩

/-- **The vectors that are read off an expression are those that its value stands for.** -/
theorem vectors?_eq_some_iff (e : Expr Float) (vectors : List (Position Float)) :
    e.vectors? = some vectors ↔ StandsFor e.simplify vectors := by
  rw [vectors?, Option.bind_eq_some_iff]
  -- a number stands for no vectors, and of a matrix all elements must be numbers
  rcases simplify_kind e with ⟨v, s, htree, -⟩ | ⟨rows, s, hrows, htree, -⟩
  · rw [htree]
    constructor
    · rintro ⟨cells, hcells, -⟩
      cases hcells
    · intro h
      cases h
  · rw [htree]
    simp only [numbers?_matrix_eq_some_iff]
    constructor
    · rintro ⟨cells, ⟨-, hcells⟩, hvectors⟩
      exact standsFor_of_cells hrows hcells hvectors
    · intro h
      obtain ⟨cells, hcells, hvectors⟩ := cells_of_standsFor h
      exact ⟨cells, ⟨hrows, hcells⟩, hvectors⟩

end Expr

end LinearCalc
