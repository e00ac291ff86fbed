import LinearCalc.Proofs.Values.Rectangular

set_option autoImplicit false

/-! # Results

The tree that an expression evaluates to shows the value of the expression (`simplify_kind`): it is
a number, or it is a matrix whose elements mean the cells of the value, whether these elements were
computed, or typed and not yet evaluated. Evaluating such a tree again finds the same value
(`value_simplify`) and leaves the tree as it is (`simplify_simplify`).
-/

namespace LinearCalc
namespace Expr

variable {α : Type}

/-- The exponent is a mark, or the operation applies to the values of both operands. -/
theorem mark_or_operation (op : Operator) (right : Expr α) :
    (op = .pow ∧ ∃ text, right.symbol? = some text) ∨ (op = .pow → right.symbol? = none) := by
  cases hsymbol : right.symbol? with
  | none => exact .inr (fun _ => rfl)
  | some text =>
      by_cases hop : op = .pow
      · exact .inl ⟨hop, text, rfl⟩
      · exact .inr (fun h => absurd h hop)

variable [Scalar α]

/-! ## One operation -/

theorem simplify_mark {right : Expr α} {text : String} (h : right.symbol? = some text)
    (os : Span) (left : Expr α) (s : Span) :
    (binary .pow os left right s).simplify
      = if text = transposeSymbol then left.simplify.transposed s else invalid s := by
  simp only [simplify, h]

theorem value_mark {right : Expr α} {text : String} (h : right.symbol? = some text)
    (os : Span) (left : Expr α) (s : Span) :
    (binary .pow os left right s).value
      = if text = transposeSymbol then left.value.transposed else .invalid := by
  simp only [value, h]

theorem simplify_binary {op : Operator} {right : Expr α} (h : op = .pow → right.symbol? = none)
    (os : Span) (left : Expr α) (s : Span) :
    (binary op os left right s).simplify
      = (op.apply left.value right.value).expr s left.simplify := by
  rw [simplify]
  intro text hop hsymbol
  rw [h hop] at hsymbol
  cases hsymbol

theorem value_binary {op : Operator} {right : Expr α} (h : op = .pow → right.symbol? = none)
    (os : Span) (left : Expr α) (s : Span) :
    (binary op os left right s).value
      = (op.apply left.value right.value).value left.value := by
  rw [value]
  intro text hop hsymbol
  rw [h hop] at hsymbol
  cases hsymbol

/-- Rows mean a matrix when there is one, and a matrix of elements means the matrix of what the
elements mean. -/
theorem value_matrix (rows : List (List (Expr α))) (s : Span) :
    (matrix rows s).value
      = if rectangular (rows.map (List.map value)) then .matrix (rows.map (List.map value))
        else .invalid := by
  rw [value, rectangular_map, valueRows_eq_map]

/-! ## The tree of a result -/

/-- The numbers of a grid, put into a tree, mean themselves. -/
theorem map_value_numbers (cells : Grid α) (s : Span) :
    List.map (List.map value) (cells.map (fun v => number v s)) = cells.map Value.scalar := by
  simp [Grid.map, Function.comp_def, value]

/-- **The result is a number or a matrix**, just as the value is, and the elements of the matrix
mean the cells of the value. -/
theorem simplify_kind (e : Expr α) :
    (∃ v s, e.simplify = .number v s ∧ e.value = .scalar v) ∨
    (∃ rows s, rectangular rows = true ∧ e.simplify = .matrix rows s ∧
      e.value = .matrix (rows.map (List.map value))) := by
  match e with
  | number v s => exact .inl ⟨v, s, rfl, rfl⟩
  | symbol t s => exact .inl ⟨_, s, rfl, rfl⟩
  | placeholder s => exact .inl ⟨_, s, rfl, rfl⟩
  | paren inner s =>
      rw [simplify, value]
      exact simplify_kind inner
  | matrix rows s =>
      rw [simplify, value_matrix, rectangular_map]
      by_cases hrows : rectangular rows = true
      · rw [if_pos hrows, if_pos hrows]
        exact .inr ⟨rows, s, hrows, rfl, rfl⟩
      · rw [if_neg hrows, if_neg hrows]
        exact .inl ⟨_, s, rfl, rfl⟩
  | binary op os left right s =>
      have hleft := simplify_kind left
      -- the value is a rectangle, so the tree with its cells is one
      have hrect := value_rectangular (binary op os left right s)
      rcases mark_or_operation op right with ⟨rfl, text, hmark⟩ | hoperation
      · rw [value_mark hmark] at hrect
        rw [simplify_mark hmark, value_mark hmark]
        by_cases htext : text = transposeSymbol
        · rw [if_pos htext] at hrect
          rw [if_pos htext, if_pos htext]
          rcases hleft with ⟨v, s', htree, hvalue⟩ | ⟨rows, s', -, htree, hvalue⟩
          · rw [htree, hvalue]
            exact .inl ⟨_, s, rfl, rfl⟩
          · have hturned : left.value.transposed
                = .matrix ((transpose rows).map (List.map value)) := by
              rw [hvalue, Value.transposed, transpose_map]
            rw [hturned, Value.Rectangular, rectangular_map] at hrect
            rw [hturned, htree]
            exact .inr ⟨transpose rows, s, hrect, rfl, rfl⟩
        · rw [if_neg htext, if_neg htext]
          exact .inl ⟨_, s, rfl, rfl⟩
      · rw [value_binary hoperation] at hrect
        rw [simplify_binary hoperation, value_binary hoperation]
        cases happly : op.apply left.value right.value with
        | scalar v => exact .inl ⟨v, s, rfl, rfl⟩
        | grid cells =>
            rw [happly] at hrect
            have hcells : rectangular (cells.map Value.scalar) = true := hrect
            rw [← map_value_numbers cells s, rectangular_map] at hcells
            refine .inr ⟨_, s, hcells, rfl, ?_⟩
            rw [map_value_numbers]
            rfl
        | unchanged => exact hleft
        | invalid => exact .inl ⟨_, s, rfl, rfl⟩
  | unsupported sign os left right s => exact .inl ⟨_, s, rfl, rfl⟩

/-- What evaluates to a matrix means its elements. -/
theorem value_of_simplify_matrix {e : Expr α} {rows : List (List (Expr α))} {s : Span}
    (h : e.simplify = matrix rows s) :
    rectangular rows = true ∧ e.value = .matrix (rows.map (List.map value)) := by
  rcases simplify_kind e with ⟨v, t, htree, -⟩ | ⟨rows', t, hrows, htree, hvalue⟩
  · rw [h] at htree
    cases htree
  · rw [h] at htree
    obtain ⟨rfl, -⟩ := matrix.inj htree
    exact ⟨hrows, hvalue⟩

/-- **A result means what its expression means.** -/
theorem value_simplify (e : Expr α) : e.simplify.value = e.value := by
  rcases simplify_kind e with ⟨v, s, htree, hvalue⟩ | ⟨rows, s, hrows, htree, hvalue⟩
  · rw [htree, hvalue]
    rfl
  · rw [htree, hvalue, value_matrix, rectangular_map, if_pos hrows]

/-- **A result stays as it is when it is evaluated.** -/
theorem simplify_simplify (e : Expr α) : e.simplify.simplify = e.simplify := by
  rcases simplify_kind e with ⟨v, s, htree, -⟩ | ⟨rows, s, hrows, htree, -⟩
  · rw [htree]
    rfl
  · rw [htree, simplify, if_pos hrows]

/-- No result is a mark. -/
theorem symbol?_simplify (e : Expr α) : e.simplify.symbol? = none := by
  rcases simplify_kind e with ⟨v, s, htree, -⟩ | ⟨rows, s, -, htree, -⟩
  · rw [htree]
    rfl
  · rw [htree]
    rfl

end Expr
end LinearCalc
