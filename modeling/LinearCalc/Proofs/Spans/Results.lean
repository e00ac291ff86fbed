import LinearCalc.Proofs.Spans.Tidy
import LinearCalc.Proofs.Values.Computed

set_option autoImplicit false

/-! # The spans of results

Evaluation keeps spans nested: where every node holds the spans of its children, so does every node
of the result, and the result lies inside the expression (`simplify_spans`). The cells that an
operation computes have its own span, but a transpose moves elements that were typed, and these lie
inside the operand. Only a square matrix to the power one keeps the span of the operand; every other
operation has a result with its own span, even if it does not apply (`firstPower_of_row`).
-/

namespace LinearCalc

theorem mem_of_mem_foldr_zipWith {β : Type} {rows : List (List β)} {width : Nat}
    {column : List β} {b : β}
    (hcolumn : column ∈ rows.foldr (List.zipWith List.cons) (List.replicate width []))
    (hb : b ∈ column) : b ∈ rows.flatten := by
  induction rows generalizing column with
  | nil =>
      rw [List.foldr_nil] at hcolumn
      rw [(List.mem_replicate.1 hcolumn).2] at hb
      cases hb
  | cons row rows ih =>
      rw [List.foldr_cons] at hcolumn
      obtain ⟨i, hi, rfl⟩ := List.getElem_of_mem hcolumn
      rw [List.getElem_zipWith] at hb
      rw [List.flatten_cons, List.mem_append]
      rcases List.mem_cons.1 hb with rfl | hb
      · exact .inl (List.getElem_mem _)
      · exact .inr (ih (List.getElem_mem _) hb)

/-- What is in the columns was in the rows. -/
theorem mem_of_mem_transpose {β : Type} {rows : List (List β)} {b : β}
    (h : b ∈ (transpose rows).flatten) : b ∈ rows.flatten := by
  obtain ⟨column, hcolumn, hb⟩ := List.mem_flatten.1 h
  exact mem_of_mem_foldr_zipWith hcolumn hb

namespace Expr

variable {α : Type}

/-! ## Nested trees -/

/-- The span of every child lies inside that of its parent. -/
def Nested (e : Expr α) : Prop := ∀ n ∈ e.preorder, ∀ c ∈ n.children, c.span.Within n.span

instance (e : Expr α) : Decidable e.Nested :=
  inferInstanceAs (Decidable (∀ n ∈ e.preorder, ∀ c ∈ n.children, c.span.Within n.span))

theorem nested_iff {e : Expr α} :
    e.Nested ↔ ∀ c ∈ e.children, c.span.Within e.span ∧ c.Nested := by
  unfold Nested
  rw [forall_mem_preorder]
  exact ⟨fun h c hc => ⟨h.1 c hc, h.2 c hc⟩,
    fun h => ⟨fun c hc => (h c hc).1, fun c hc => (h c hc).2⟩⟩

theorem nested_number (v : α) (s : Span) : (number v s).Nested := by
  rw [nested_iff]
  simp

variable [Scalar α]

/-! ## Powers that leave their operand -/

/-- A square matrix is raised to the power one. -/
def IsFirstPower (op : Operator) (left right : Expr α) : Prop :=
  op = .pow ∧ right.symbol? = none ∧ ∃ rows s exponent t,
    left.simplify = matrix rows s ∧ (shape rows).1 = (shape rows).2 ∧
    right.simplify = number exponent t ∧ Scalar.toInt? exponent = some 1

end Expr

namespace Value

variable {α : Type} [Scalar α]

/-- Only a square matrix to the power one is left as it is. -/
theorem power_eq_unchanged_iff (left right : Value α) :
    left.power right = .unchanged ↔ ∃ rows exponent, left = matrix rows ∧ right = scalar exponent ∧
      (shape rows).1 = (shape rows).2 ∧ Scalar.toInt? exponent = some 1 := by
  constructor
  · intro h
    match left, right with
    | scalar _, scalar _ | scalar _, matrix _ | matrix _, matrix _ => cases h
    | matrix rows, scalar exponent =>
        by_cases hone : Scalar.toInt? exponent = some 1
        · by_cases hshape : (shape rows).1 = (shape rows).2
          · exact ⟨rows, exponent, rfl, rfl, hshape, hone⟩
          · rw [power, matrixExponent?, if_neg hshape] at h
            cases h
        · -- with another exponent a power has a result of its own
          have hown : ((matrix rows).power (scalar exponent)).Own := by
            refine power_own (fun b hb => ?_)
            cases hb
            exact hone
          rw [h] at hown
          cases hown
  · rintro ⟨rows, exponent, rfl, rfl, hshape, hone⟩
    rw [power, matrixExponent?, if_pos hshape, hone]
    rfl

/-- A matrix that is not square has no powers. -/
theorem power_of_not_square {rows : List (List (Value α))} (h : (shape rows).1 ≠ (shape rows).2)
    (right : Value α) : (matrix rows).power right = .invalid := by
  cases right with
  | scalar exponent =>
      rw [power, matrixExponent?, if_neg h]
  | matrix rows' => rfl

end Value

/-- No operation but a power leaves its operand as it is. -/
theorem Operator.apply_eq_unchanged_iff {α : Type} [Scalar α] (op : Operator)
    (left right : Value α) :
    op.apply left right = .unchanged ↔ op = .pow ∧ left.power right = .unchanged := by
  constructor
  · intro h
    by_cases hop : op = .pow
    · subst hop
      exact ⟨rfl, h⟩
    · have hown : (op.apply left right).Own := op.apply_own (fun hpow => absurd hpow hop)
      rw [h] at hown
      cases hown
  · rintro ⟨rfl, h⟩
    exact h

/-- A result has the span of its operation, unless it is the operand. -/
theorem Computed.span_expr {α : Type} [Scalar α] {computed : Computed α}
    (h : computed ≠ .unchanged) (s : Span) (left : Expr α) : (computed.expr s left).span = s := by
  cases computed with
  | scalar v => rfl
  | grid cells => rfl
  | unchanged => exact absurd rfl h
  | invalid => rfl

namespace Expr

variable {α : Type} [Scalar α]

/-! ## Spans -/

theorem isFirstPower_iff {op : Operator} {left right : Expr α}
    (h : op = .pow → right.symbol? = none) :
    IsFirstPower op left right ↔ op.apply left.value right.value = .unchanged := by
  rw [op.apply_eq_unchanged_iff, Value.power_eq_unchanged_iff]
  constructor
  · rintro ⟨hop, -, rows, s, exponent, t, hleft, hshape, hright, hone⟩
    refine ⟨hop, _, exponent, (value_of_simplify_matrix hleft).2, ?_, ?_, hone⟩
    · rw [← value_simplify right, hright]
      rfl
    · rw [shape_map]
      exact hshape
  · rintro ⟨hop, cells, exponent, hleft, hright, hshape, hone⟩
    refine ⟨hop, h hop, ?_⟩
    -- what the operands mean is known; what they are simplified to must be of the same kinds
    rcases simplify_kind left with ⟨v, s, -, hvalue⟩ | ⟨rows, s, -, htree, hvalue⟩
    · rw [hleft] at hvalue
      cases hvalue
    · rcases simplify_kind right with ⟨v, t, htree', hvalue'⟩ | ⟨rows', t, -, -, hvalue'⟩
      · rw [hleft] at hvalue
        rw [hright] at hvalue'
        obtain rfl := Value.matrix.inj hvalue
        obtain rfl := Value.scalar.inj hvalue'
        rw [shape_map] at hshape
        exact ⟨rows, s, exponent, t, htree, hshape, htree', hone⟩
      · rw [hright] at hvalue'
        cases hvalue'

/-- **A square matrix to the power one is the matrix.** -/
theorem IsFirstPower.simplify_eq {op : Operator} {left right : Expr α}
    (h : IsFirstPower op left right) (os s : Span) :
    (binary op os left right s).simplify = left.simplify := by
  have hmark : op = .pow → right.symbol? = none := fun _ => h.2.1
  rw [simplify_binary hmark, (isFirstPower_iff hmark).1 h]
  rfl

/-- **A matrix that is not square has no power**, not even the first. -/
theorem simplify_power_of_not_square {left right : Expr α} {rows : List (List (Expr α))} {t : Span}
    (hleft : left.simplify = matrix rows t) (hshape : (shape rows).1 ≠ (shape rows).2)
    (hmark : right.symbol? = none) (os s : Span) :
    (binary .pow os left right s).simplify = invalid s := by
  have hpower : left.value.power right.value = .invalid := by
    rw [(value_of_simplify_matrix hleft).2]
    exact Value.power_of_not_square (by rwa [shape_map]) right.value
  rw [simplify_binary (fun _ => hmark), Operator.apply, hpower]
  rfl

theorem span_transposed (s : Span) (e : Expr α) : (e.transposed s).span = s := by
  cases e <;> rfl

/-- **Every other operation has a result with its own span.** -/
theorem span_simplify_binary {op : Operator} {left right : Expr α}
    (h : ¬ IsFirstPower op left right) (os s : Span) :
    (binary op os left right s).simplify.span = s := by
  rcases mark_or_operation op right with ⟨rfl, text, hmark⟩ | hoperation
  · rw [simplify_mark hmark]
    split
    · exact span_transposed s left.simplify
    · rfl
  · rw [simplify_binary hoperation]
    exact Computed.span_expr (fun hsame => h ((isFirstPower_iff hoperation).2 hsame)) s _

/-! ## Nesting -/

theorem nested_transposed {s : Span} {e : Expr α} (h : e.Nested) (hwithin : e.span.Within s) :
    (e.transposed s).Nested := by
  cases e with
  | matrix rows t =>
      rw [nested_iff] at h ⊢
      intro c hc
      obtain ⟨hinside, hnested⟩ := h c (mem_of_mem_transpose hc)
      exact ⟨hinside.trans hwithin, hnested⟩
  | _ => exact nested_number _ s

/-- A computed result is nested: its cells have the span of the operation. -/
theorem nested_computed {s : Span} {left : Expr α} (h : left.Nested) (computed : Computed α) :
    (computed.expr s left).Nested := by
  cases computed with
  | scalar v => exact nested_number v s
  | grid cells =>
      rw [nested_iff]
      intro c hc
      obtain ⟨row, hrow, hc⟩ := List.mem_flatten.1 hc
      obtain ⟨values, -, rfl⟩ := List.mem_map.1 hrow
      obtain ⟨v, -, rfl⟩ := List.mem_map.1 hc
      exact ⟨Span.Within.refl s, nested_number v s⟩
  | unchanged => exact h
  | invalid => exact nested_number _ s

/-- **Evaluation keeps spans nested**, and the result lies inside the expression. -/
theorem Nested.simplify {e : Expr α} (h : e.Nested) :
    e.simplify.Nested ∧ e.simplify.span.Within e.span := by
  have hchildren := nested_iff.1 h
  match e with
  | number v s => exact ⟨h, Span.Within.refl s⟩
  | symbol t s => exact ⟨nested_number _ s, Span.Within.refl s⟩
  | placeholder s => exact ⟨nested_number _ s, Span.Within.refl s⟩
  | paren inner s =>
      obtain ⟨hinside, hinner⟩ := hchildren inner (by simp)
      obtain ⟨hnested, hwithin⟩ := hinner.simplify
      exact ⟨hnested, hwithin.trans hinside⟩
  | matrix rows s =>
      rw [Expr.simplify]
      split
      · exact ⟨h, Span.Within.refl s⟩
      · exact ⟨nested_number _ s, Span.Within.refl s⟩
  | binary op os left right s =>
      obtain ⟨hinside, hleft⟩ := hchildren left (by simp)
      obtain ⟨hnested, hwithin⟩ := hleft.simplify
      refine ⟨?_, ?_⟩
      · rcases mark_or_operation op right with ⟨rfl, text, hmark⟩ | hoperation
        · rw [simplify_mark hmark]
          split
          · exact nested_transposed hnested (hwithin.trans hinside)
          · exact nested_number _ s
        · rw [simplify_binary hoperation]
          exact nested_computed hnested _
      -- the first power of a matrix is the matrix, with its own span; every other result has the
      -- span of the operation
      · by_cases hfirst : IsFirstPower op left right
        · rw [hfirst.simplify_eq]
          exact hwithin.trans hinside
        · rw [span_simplify_binary hfirst]
          exact Span.Within.refl s
  | unsupported sign os left right s => exact ⟨nested_number _ s, Span.Within.refl s⟩

/-- **The spans of results.** Evaluation keeps spans nested; the result of an operation has the span
of the operation, whether it applies or not; and the content of a parenthesis and a square matrix to
the power one keep the span of their own results. Nothing else does: a power of a matrix that is not
square does not apply, not even with the exponent one, and what stands for its missing value has the
span of the power. -/
theorem simplify_spans :
    (∀ e : Expr α, e.Nested → e.simplify.Nested ∧ e.simplify.span.Within e.span) ∧
    (∀ (op : Operator) (os : Span) (left right : Expr α) (s : Span),
      ¬ IsFirstPower op left right → (binary op os left right s).simplify.span = s) ∧
    (∀ (sign : String) (os : Span) (left right : Expr α) (s : Span),
      (unsupported sign os left right s).simplify.span = s) ∧
    (∀ (inner : Expr α) (s : Span), (paren inner s).simplify = inner.simplify) ∧
    (∀ (op : Operator) (os : Span) (left right : Expr α) (s : Span),
      IsFirstPower op left right → (binary op os left right s).simplify = left.simplify) ∧
    ∀ (os : Span) (left right : Expr α) (s : Span) (rows : List (List (Expr α))) (t : Span),
      left.simplify = matrix rows t → (shape rows).1 ≠ (shape rows).2 → right.symbol? = none →
      (binary .pow os left right s).simplify = invalid s := by
  refine ⟨fun e h => h.simplify, ?_, ?_, ?_, ?_, ?_⟩
  · intro op os left right s h
    exact span_simplify_binary h os s
  · intro sign os left right s
    rfl
  · intro inner s
    rw [Expr.simplify]
  · intro op os left right s h
    exact h.simplify_eq os s
  · intro os left right s rows t hleft hshape hmark
    exact simplify_power_of_not_square hleft hshape hmark os s

/-- The matrix of `([1,2;3,4]^1)^T`. -/
def squareInParens : Expr Float :=
  matrix [[number 1 ⟨2, 3⟩, number 2 ⟨4, 5⟩], [number 3 ⟨6, 7⟩, number 4 ⟨8, 9⟩]] ⟨1, 10⟩

/-- The power in the parentheses of `([1,2;3,4]^1)^T`. -/
def powerInParens : Expr Float := binary .pow ⟨10, 11⟩ squareInParens (number 1 ⟨11, 12⟩) ⟨1, 12⟩

/-- The matrix of `[1,2]^1`. -/
def plainRow : Expr Float := matrix [[number 1 ⟨1, 2⟩, number 2 ⟨3, 4⟩]] ⟨0, 5⟩

theorem simplify_spans_turned :
    let parens := paren powerInParens ⟨0, 13⟩
    let turned := binary .pow ⟨13, 14⟩ parens (symbol "T" ⟨14, 15⟩) ⟨0, 15⟩
    (turned.Nested ∧ IsFirstPower .pow squareInParens (number 1 ⟨11, 12⟩) ∧
      ¬ IsFirstPower .pow parens (symbol "T" ⟨14, 15⟩)) ∧
    (turned.simplify.Nested ∧ turned.simplify.span.Within ⟨0, 15⟩) ∧
      powerInParens.simplify = squareInParens.simplify ∧ turned.simplify.span = ⟨0, 15⟩ ∧
      (binary .pow ⟨5, 6⟩ plainRow (number 1 ⟨6, 7⟩) ⟨0, 7⟩).simplify = invalid ⟨0, 7⟩ := by
  intro parens turned
  have hnested : turned.Nested := by decide +kernel
  have hfirst : IsFirstPower .pow squareInParens (number 1 ⟨11, 12⟩) :=
    ⟨rfl, rfl, _, ⟨1, 10⟩, 1, ⟨11, 12⟩, rfl, rfl, rfl, by decide +kernel⟩
  have hmark : ¬ IsFirstPower .pow parens (symbol "T" ⟨14, 15⟩) := by
    rintro ⟨-, hnone, -⟩
    cases hnone
  obtain ⟨hall, hspan, -, -, hsame, hrow⟩ := simplify_spans (α := Float)
  exact ⟨⟨hnested, hfirst, hmark⟩, hall turned hnested, hsame _ _ _ _ _ hfirst,
    hspan _ _ _ _ _ hmark, hrow _ plainRow _ _ _ _ rfl (by decide) rfl⟩

/-- **A row has no power one**: the result has the span of the power, not that of the row. -/
theorem firstPower_of_row :
    plainRow.simplify = plainRow ∧ (number (1 : Float) ⟨6, 7⟩).simplify = number 1 ⟨6, 7⟩ ∧
      let power := binary .pow ⟨5, 6⟩ plainRow (number 1 ⟨6, 7⟩) ⟨0, 7⟩
      power.simplify.span = ⟨0, 7⟩ ∧ power.simplify ≠ plainRow.simplify := by
  have hspan : (binary .pow ⟨5, 6⟩ plainRow (number 1 ⟨6, 7⟩) ⟨0, 7⟩).simplify.span = ⟨0, 7⟩ :=
    rfl
  refine ⟨rfl, rfl, hspan, fun hsame => ?_⟩
  rw [hsame] at hspan
  cases hspan

end Expr
end LinearCalc
