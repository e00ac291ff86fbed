import LinearCalc.Proofs.Rectangles
import LinearCalc.Simplify

set_option autoImplicit false

/-! # Matrices are rectangles

Every matrix that comes out of an expression is a rectangle with at least one element
(`value_rectangular`): whoever works on its cells finds some.
-/

namespace LinearCalc

variable {α : Type} [Scalar α]

/-- The value is a number, or a matrix with elements in rows of one length. -/
def Value.Rectangular : Value α → Prop
  | .scalar _ => True
  | .matrix rows => rectangular rows = true

/-- What is computed is a rectangle, if it is a matrix of its own. -/
def Computed.Rectangular : Computed α → Prop
  | .grid cells => rectangular cells = true
  | _ => True

theorem Computed.rectangular_ofGrid {cells : Grid α} (h : rectangular cells = true) :
    (Computed.ofGrid cells).Rectangular := by
  unfold Computed.ofGrid
  split
  · trivial
  · exact h

/-- The numbers of a rectangular value. -/
theorem Value.Rectangular.numbers {v : Value α} (h : v.Rectangular) {cells : Grid α}
    (hcells : v.numbers? = some cells) : ∃ m n, 0 < m ∧ 0 < n ∧ Rect m n cells := by
  cases v with
  | scalar a => cases hcells
  | matrix rows =>
      obtain ⟨m, n, hm, hn, hrect⟩ := (rectangular_iff rows).1 h
      exact ⟨m, n, hm, hn, hrect.mapM hcells⟩

theorem Value.bothNumbers?_eq_some {left right : Value α} {a b : Grid α}
    (h : Value.bothNumbers? left right = some (a, b)) :
    left.numbers? = some a ∧ right.numbers? = some b := by
  simp only [Value.bothNumbers?, Option.bind_eq_bind, Option.bind_eq_some_iff,
    Option.some.injEq, Prod.mk.injEq] at h
  obtain ⟨x, hx, y, hy, rfl, rfl⟩ := h
  exact ⟨hx, hy⟩

theorem Value.Rectangular.elementwise {left right : Value α} (hl : left.Rectangular)
    (hr : right.Rectangular) (f : α → α → α) : (left.elementwise f right).Rectangular := by
  unfold Value.elementwise
  split
  · trivial
  · split
    · rename_i a b hboth
      split
      · rename_i hshape
        obtain ⟨ha, hb⟩ := Value.bothNumbers?_eq_some hboth
        obtain ⟨m, n, hm, hn, harect⟩ := hl.numbers ha
        obtain ⟨m', n', hm', hn', hbrect⟩ := hr.numbers hb
        rw [harect.shape_eq hm, hbrect.shape_eq hm'] at hshape
        obtain ⟨rfl, rfl⟩ := Prod.mk.inj hshape
        exact Computed.rectangular_ofGrid
          ((rectangular_iff _).2 ⟨m, n, hm, hn, harect.zipWith f hbrect⟩)
      · trivial
    · trivial

/-- Changing every cell of the numbers of a value. -/
theorem Value.Rectangular.scaled {v : Value α} (h : v.Rectangular) {cells : Grid α}
    (hcells : v.numbers? = some cells) (f : α → α) :
    (Computed.ofGrid (cells.map f)).Rectangular := by
  obtain ⟨m, n, hm, hn, hrect⟩ := h.numbers hcells
  exact Computed.rectangular_ofGrid ((rectangular_iff _).2 ⟨m, n, hm, hn, hrect.map f⟩)

theorem Value.Rectangular.multiply {left right : Value α} (hl : left.Rectangular)
    (hr : right.Rectangular) : (left.multiply right).Rectangular := by
  unfold Value.multiply
  split
  · trivial
  · split
    · exact hr.scaled ‹_› _
    · trivial
  · split
    · exact hl.scaled ‹_› _
    · trivial
  · split
    · rename_i a b hboth
      split
      · rename_i hshape
        obtain ⟨ha, hb⟩ := Value.bothNumbers?_eq_some hboth
        obtain ⟨m, k, hm, hk, harect⟩ := hl.numbers ha
        obtain ⟨k', n, hk', hn, hbrect⟩ := hr.numbers hb
        rw [harect.shape_eq hm, hbrect.shape_eq hk'] at hshape
        obtain rfl : k = k' := hshape
        exact Computed.rectangular_ofGrid
          ((rectangular_iff _).2 ⟨m, n, hm, hn, harect.mul hbrect hk⟩)
      · trivial
    · trivial

theorem Value.Rectangular.divide {left right : Value α} (hl : left.Rectangular) :
    (left.divide right).Rectangular := by
  unfold Value.divide
  split
  · trivial
  · split
    · trivial
    · split
      · trivial
      · split
        · exact hl.scaled ‹_› _
        · trivial

theorem Value.Rectangular.power {left right : Value α} (hl : left.Rectangular) :
    (left.power right).Rectangular := by
  unfold Value.power
  split
  · trivial
  · rename_i rows exponent
    split
    · trivial
    · rename_i e hexponent
      split
      · trivial
      · split
        · rename_i cells hcells
          obtain ⟨m, n, hm, hn, hrect⟩ := (rectangular_iff rows).1 hl
          have hcellsrect : Rect m n cells := hrect.mapM hcells
          -- only a square matrix has an exponent
          have hsquare : m = n := by
            unfold Value.matrixExponent? at hexponent
            rw [hrect.shape_eq hm] at hexponent
            by_cases hmn : m = n
            · exact hmn
            · rw [if_neg hmn] at hexponent
              cases hexponent
          subst hsquare
          exact Computed.rectangular_ofGrid
            ((rectangular_iff _).2 ⟨m, m, hm, hn, hcellsrect.pow hm e⟩)
        · trivial
  · trivial

theorem Value.rectangular_dotProduct (left right : Value α) :
    (left.dotProduct right).Rectangular := by
  unfold Value.dotProduct
  split
  · dsimp only
    split <;> trivial
  · trivial

/-- The cross product takes three cells on either side and gives three. -/
theorem length_of_cross? {u v w : List α} (h : Grid.cross? u v = some w) :
    u.length = 3 ∧ w.length = 3 := by
  unfold Grid.cross? at h
  split at h
  · obtain rfl := Option.some.inj h
    exact ⟨rfl, rfl⟩
  · cases h

theorem Value.rectangular_crossProduct (left right : Value α) :
    (left.crossProduct right).Rectangular := by
  unfold Value.crossProduct
  split
  · split
    · rename_i cells hcells
      obtain ⟨-, hlength⟩ := length_of_cross? hcells
      exact Computed.rectangular_ofGrid (rectangular_arrangeLike _ hlength)
    · trivial
  · trivial

/-- **Operations on rectangles give rectangles.** -/
theorem Value.Rectangular.apply (op : Operator) {left right : Value α} (hl : left.Rectangular)
    (hr : right.Rectangular) : (op.apply left right).Rectangular := by
  cases op with
  | add => exact hl.elementwise hr _
  | sub => exact hl.elementwise hr _
  | mul => exact hl.multiply hr
  | div => exact hl.divide
  | pow => exact hl.power
  | dot => exact Value.rectangular_dotProduct left right
  | cross => exact Value.rectangular_crossProduct left right

theorem Computed.Rectangular.value {left : Value α} (hl : left.Rectangular) {c : Computed α}
    (h : c.Rectangular) : (c.value left).Rectangular := by
  cases c with
  | scalar v => trivial
  | grid cells =>
      obtain ⟨m, n, hm, hn, hrect⟩ := (rectangular_iff cells).1 h
      exact (rectangular_iff _).2 ⟨m, n, hm, hn, hrect.map Value.scalar⟩
  | unchanged => exact hl
  | invalid => trivial

theorem Value.Rectangular.transposed {v : Value α} (h : v.Rectangular) :
    v.transposed.Rectangular := by
  cases v with
  | scalar a => trivial
  | matrix rows =>
      obtain ⟨m, n, hm, hn, hrect⟩ := (rectangular_iff rows).1 h
      exact (rectangular_iff _).2 ⟨n, m, hn, hm, hrect.transpose hm⟩

/-! ## Expressions -/

theorem valueRow_eq_map (row : List (Expr α)) : Expr.valueRow row = row.map Expr.value := by
  induction row with
  | nil => rfl
  | cons e row ih => rw [Expr.valueRow, ih, List.map_cons]

theorem valueRows_eq_map (rows : List (List (Expr α))) :
    Expr.valueRows rows = rows.map (List.map Expr.value) := by
  induction rows with
  | nil => rfl
  | cons row rows ih => rw [Expr.valueRows, ih, valueRow_eq_map, List.map_cons]

/-- **Every matrix that an expression means is a rectangle** with at least one element. -/
theorem value_rectangular (e : Expr α) : e.value.Rectangular := by
  match e with
  | .number v s => trivial
  | .symbol t s => trivial
  | .placeholder s => trivial
  | .paren inner s =>
      rw [Expr.value]
      exact value_rectangular inner
  | .matrix rows s =>
      rw [Expr.value]
      split
      · rename_i hrows
        obtain ⟨m, n, hm, hn, hrect⟩ := (rectangular_iff rows).1 hrows
        rw [valueRows_eq_map]
        exact (rectangular_iff _).2 ⟨m, n, hm, hn, hrect.map Expr.value⟩
      · trivial
  | .binary op os left right s =>
      have hl := value_rectangular left
      have hr := value_rectangular right
      unfold Expr.value
      split
      · split
        · exact hl.transposed
        · trivial
      · exact Computed.Rectangular.value hl (hl.apply _ hr)
  | .unsupported sign os left right s => trivial

end LinearCalc
