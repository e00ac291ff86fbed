import LinearCalc.Proofs.Floats.Significand
import LinearCalc.Proofs.Values.Computed
import LinearCalc.Render.Result

set_option autoImplicit false

/-! # What evaluation gives

Every expression, however little sense it makes, evaluates to a number or to a rectangular matrix,
which is shown without a fault and stays as it is when it is evaluated again; and the matrices that
operations compute have numbers in all their cells (`simplify_domain`).
-/

namespace LinearCalc

/-! ## Exponents -/

/-- The number one has the exponent zero. -/
theorem exponent_of_toInt?_eq_one {m : Nat} {e : Int} (hm : 0 < m)
    (h : (Binary64.finite false m e).toInt? = some 1) : (m.log2 : Int) + e = 0 := by
  unfold Binary64.toInt? at h
  dsimp only [Ratio.ofScaled] at h
  have hden := twoPow_pos (-e).toNat
  split at h
  · rename_i hdivides
    have hquotient : m * twoPow e.toNat / twoPow (-e).toNat = 1 := by
      have hsigned := Option.some.inj h
      simp only [Binary64.signed, Bool.false_eq_true, if_false] at hsigned
      omega
    have hequal : m * twoPow e.toNat = 1 * twoPow (-e).toNat := by
      rw [← hquotient, Nat.div_mul_cancel (Nat.dvd_of_mod_eq_zero hdivides)]
    -- the mantissa and the divisor are the same power of two, shifted: compare their lengths
    have hlog := congrArg Nat.log2 hequal
    rw [log2_mul_twoPow hm, log2_mul_twoPow Nat.one_pos] at hlog
    have hone : Nat.log2 1 = 0 := rfl
    omega
  · cases h

/-- An exponent of at least two is not one. -/
theorem toInt?_ne_one {exponent : Float} (h : 2 ≤ exponent) :
    Scalar.toInt? exponent ≠ some 1 := by
  intro hone
  have hint : (Binary64.ofUnpacked exponent.toModel.unpack).toInt? = some 1 := by
    rw [← Binary64.ofFloat_eq]
    exact hone
  have htwo : (2 : Float).toModel.unpack = .finite .positive (twoPow 52) (-51) (by decide) := rfl
  have hle := (float_le_iff 2 exponent).1 h
  rw [htwo] at hle
  cases hunpacked : exponent.toModel.unpack with
  | notANumber =>
      rw [hunpacked] at hint
      cases hint
  | infinity s =>
      rw [hunpacked] at hint
      cases hint
  | zero s =>
      rw [hunpacked] at hle
      cases hle
  | finite s m e hm =>
      cases s with
      | negative =>
          rw [hunpacked] at hle
          cases hle
      | positive =>
          -- two has the exponent one, so that of a larger number is not zero
          have hexponent := (significand_two.le_iff (significand_of_unpack hunpacked)).1 h
          rw [hunpacked] at hint
          have hzero := exponent_of_toInt?_eq_one hm hint
          omega

/-! ## Faults -/

theorem rowFaultFrom?_eq_none {β : Type} {width : Nat} (hwidth : 0 < width)
    {rows : List (List β)} (h : ∀ row ∈ rows, row.length = width) {before : Option Nat}
    (hbefore : before = none ∨ before = some width) : rowFaultFrom? before rows = none := by
  induction rows generalizing before with
  | nil => rfl
  | cons row rows ih =>
      have hrow : row.length = width := h row (by simp)
      have hempty : row.isEmpty = false := by
        rw [List.isEmpty_eq_false_iff, ← List.length_pos_iff]
        omega
      have hequal : before.any (· != row.length) = false := by
        rcases hbefore with rfl | rfl
        · rfl
        · rw [Option.any_some, hrow, bne_self_eq_false]
      rw [rowFaultFrom?, hempty, hequal, hrow]
      exact ih (fun r hr => h r (by simp [hr])) (.inr rfl)

/-- **A rectangle has no fault.** -/
theorem rowFault?_of_rectangular {β : Type} {rows : List (List β)} (h : rectangular rows = true) :
    rowFault? rows = none := by
  obtain ⟨m, n, -, hn, hrect⟩ := (rectangular_iff rows).1 h
  unfold rowFault?
  split
  · rfl
  · exact rowFaultFrom?_eq_none hn hrect.width (.inl rfl)

/-! ## Results -/

namespace Expr

/-- A mark is no exponent of at least two. -/
theorem symbol?_of_two_le {right : Expr Float} {exponent : Float} {t : Span}
    (h : right.simplify = number exponent t) (hle : 2 ≤ exponent) : right.symbol? = none := by
  cases right with
  | symbol text s =>
      have hnan : (0.0 / 0.0 : Float) = exponent := (number.inj h).1
      subst hnan
      exact absurd hle (by decide +kernel)
  | _ => rfl

/-- A matrix that an operation computes is made of numbers. -/
theorem simplify_cells {op : Operator} {os s s' : Span} {left right : Expr Float}
    {rows : List (List (Expr Float))}
    (hexponent : op = .pow → ∃ exponent t, right.simplify = number exponent t ∧ 2 ≤ exponent)
    (h : (binary op os left right s).simplify = matrix rows s') :
    ∃ cells : Grid Float, rows = cells.map (fun v => number v s) ∧ s' = s ∧ NumberCells cells := by
  have hoperation : op = .pow → right.symbol? = none := by
    intro hop
    obtain ⟨exponent, t, hright, hle⟩ := hexponent hop
    exact symbol?_of_two_le hright hle
  -- with such an exponent no power leaves its operand as it is
  have hown : (op.apply left.value right.value).Own := by
    refine op.apply_own (fun hop b hb => ?_)
    obtain ⟨exponent, t, hright, hle⟩ := hexponent hop
    have hvalue := value_simplify right
    rw [hright, hb] at hvalue
    obtain rfl : exponent = b := Value.scalar.inj hvalue
    exact toInt?_ne_one hle
  rw [simplify_binary hoperation] at h
  cases happly : op.apply left.value right.value with
  | scalar v =>
      rw [happly] at h
      cases h
  | grid cells =>
      rw [happly] at h hown
      obtain ⟨hrows, hspan⟩ := matrix.inj h
      exact ⟨cells, hrows.symm, hspan.symm, hown⟩
  | unchanged =>
      rw [happly] at hown
      cases hown
  | invalid =>
      rw [happly] at h
      cases h

/-- **Every expression evaluates to a number or to a rectangular matrix, which is shown without a
fault and evaluates to itself; and a matrix that is computed is made of numbers.** This holds of
trees that no text is parsed to as well: of ragged matrices, of missing operands, and of signs for
which there is no operation. A matrix that is typed keeps its elements as they evaluate, whatever
they are, and so do its power with the exponent one and its content in parentheses; but an operation
that computes the cells gives no value at all as soon as one of them is not a number. -/
theorem simplify_domain :
    (∀ e : Expr Float,
      ((∃ v s, e.simplify = number v s) ∨
        ∃ rows s, e.simplify = matrix rows s ∧ rectangular rows = true) ∧
      e.simplify.rowFault? = none ∧ e.simplify.simplify = e.simplify) ∧
    ∀ (op : Operator) (os : Span) (left right : Expr Float) (s : Span)
      (rows : List (List (Expr Float))) (s' : Span),
      (op = .pow → ∃ exponent t, right.simplify = number exponent t ∧ 2 ≤ exponent) →
      (binary op os left right s).simplify = matrix rows s' →
      ∃ cells : Grid Float, rows = cells.map (fun v => number v s) ∧ s' = s ∧
        (∀ row ∈ cells, ∀ v ∈ row, v.isNaN = false) ∧ (matrix rows s').numbers? = some cells := by
  refine ⟨fun e => ?_, ?_⟩
  · rcases simplify_kind e with ⟨v, s, htree, -⟩ | ⟨rows, s, hrows, htree, -⟩
    · refine ⟨.inl ⟨v, s, htree⟩, ?_, simplify_simplify e⟩
      rw [htree]
      rfl
    · refine ⟨.inr ⟨rows, s, htree, hrows⟩, ?_, simplify_simplify e⟩
      rw [htree]
      exact rowFault?_of_rectangular hrows
  · intro op os left right s rows s' hexponent h
    obtain ⟨cells, rfl, rfl, hcells⟩ := simplify_cells hexponent h
    have hrect := (value_of_simplify_matrix h).1
    exact ⟨cells, rfl, rfl, hcells, numbers?_matrix hcells hrect⟩

/-- The square of a matrix of two rows, as it is typed. -/
def typedSquare : Expr Float :=
  binary .pow ⟨9, 10⟩
    (matrix [[number 1 ⟨1, 2⟩, number 2 ⟨3, 4⟩], [number 3 ⟨5, 6⟩, number 4 ⟨7, 8⟩]] ⟨0, 9⟩)
    (number 2 ⟨10, 11⟩) ⟨0, 11⟩

/-- The numbers of the square, with the span of the power. -/
def squareRows : List (List (Expr Float)) :=
  Grid.map (fun v => number v ⟨0, 11⟩) [[7, 10], [15, 22]]

theorem simplify_domain_square :
    ((2 : Float) ≤ 2 ∧ typedSquare.simplify = matrix squareRows ⟨0, 11⟩) ∧
      ∃ cells : Grid Float, squareRows = cells.map (fun v => number v ⟨0, 11⟩) ∧
        (∀ row ∈ cells, ∀ v ∈ row, v.isNaN = false) ∧
        (matrix squareRows ⟨0, 11⟩).numbers? = some cells := by
  have hle : (2 : Float) ≤ 2 := by decide
  have hsquare : typedSquare.simplify = matrix squareRows ⟨0, 11⟩ := rfl
  obtain ⟨cells, hrows, -, hcells, hnumbers⟩ := simplify_domain.2 .pow _ _ _ _ _ _
    (fun _ => ⟨2, ⟨10, 11⟩, rfl, hle⟩) hsquare
  exact ⟨⟨hle, hsquare⟩, cells, hrows, hcells, hnumbers⟩

end Expr
end LinearCalc
