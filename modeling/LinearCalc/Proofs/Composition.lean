import LinearCalc.Parse
import LinearCalc.Proofs.NotANumber
import LinearCalc.Proofs.Values.Results

set_option autoImplicit false

/-! # Evaluation is compositional

Two results are alike when they are the same number, or matrices of one shape whose elements
evaluate to results that are alike; the places in the text do not matter. Whatever surrounds an
expression depends on nothing but its result (`simplify_fill_alike`), except that a power looks at
the exponent itself to see whether it is a mark. The elements of a matrix wait until an operation
needs them, so the proof goes over the values, which do not wait: results are alike exactly when
the values are equal (`alike_simplify_iff`).
-/

namespace LinearCalc
namespace Expr

/-! ## Results that are alike -/

/-- The same number, where what is not a number counts as the same, too. -/
def SameNumber (v w : Float) : Prop := v = w ∨ v.isNaN = true ∧ w.isNaN = true

/-- Results that differ in nothing but places in the text and what their elements look like before
they are evaluated. -/
inductive Alike : Expr Float → Expr Float → Prop where
  | number {v w : Float} {s t : Span} (same : SameNumber v w) : Alike (number v s) (number w t)
  | matrix {rows rows' : List (List (Expr Float))} {s t : Span}
      (isMatrix : rectangular rows = true) (isMatrix' : rectangular rows' = true)
      (sameShape : shape rows = shape rows')
      (elements : ∀ i j c c', elementAt rows i j = some c → elementAt rows' i j = some c' →
        Alike c.simplify c'.simplify) : Alike (matrix rows s) (matrix rows' t)

theorem sameNumber_iff (v w : Float) : SameNumber v w ↔ v = w := by
  constructor
  · rintro (h | ⟨hv, hw⟩)
    · exact h
    · rw [eq_nan hv, eq_nan hw]
  · exact .inl

/-- Matrices of one shape whose elements mean the same mean the same. -/
theorem map_value_eq {rows rows' : List (List (Expr Float))} (h : rectangular rows = true)
    (h' : rectangular rows' = true) (hshape : shape rows = shape rows')
    (helements : ∀ i j c c', elementAt rows i j = some c → elementAt rows' i j = some c' →
      c.value = c'.value) : rows.map (List.map value) = rows'.map (List.map value) := by
  obtain ⟨m, n, hm, -, hrect⟩ := (rectangular_iff rows).1 h
  obtain ⟨m', n', hm', -, hrect'⟩ := (rectangular_iff rows').1 h'
  rw [hrect.shape_eq hm, hrect'.shape_eq hm'] at hshape
  obtain ⟨rfl, rfl⟩ := Prod.mk.inj hshape
  refine (hrect.map value).eq_of_elements (hrect'.map value) ?_
  intro i j v v' hv hv'
  rw [elementAt_map, Option.map_eq_some_iff] at hv hv'
  obtain ⟨c, hc, rfl⟩ := hv
  obtain ⟨c', hc', rfl⟩ := hv'
  exact helements i j c c' hc hc'

/-- Results that are alike mean the same. -/
theorem Alike.value_eq {r r' : Expr Float} (h : Alike r r') : r.value = r'.value := by
  induction h with
  | number same =>
      rw [value, value, (sameNumber_iff _ _).1 same]
  | matrix isMatrix isMatrix' sameShape elements ih =>
      have hrows := map_value_eq isMatrix isMatrix' sameShape (fun i j c c' hc hc' => by
        rw [← value_simplify c, ← value_simplify c']
        exact ih i j c c' hc hc')
      rw [value_matrix, value_matrix, hrows]

/-- Elements at one place of two matrices with the same cells mean the same. -/
theorem value_eq_of_elementAt {rows rows' : List (List (Expr Float))} {i j : Nat}
    {c c' : Expr Float} (h : rows.map (List.map value) = rows'.map (List.map value))
    (hc : elementAt rows i j = some c) (hc' : elementAt rows' i j = some c') :
    c.value = c'.value := by
  have hcells := congrArg (fun cells => elementAt cells i j) h
  simp only [elementAt_map, hc, hc', Option.map_some, Option.some.injEq] at hcells
  exact hcells

/-- What is a cell of a matrix is smaller than the matrix. -/
theorem sizeOf_value_lt {rows : List (List (Expr Float))} {i j : Nat} {c : Expr Float}
    (h : elementAt rows i j = some c) :
    sizeOf c.value < sizeOf (Value.matrix (rows.map (List.map value))) := by
  obtain ⟨row, hrow, hc⟩ := mem_of_elementAt h
  have hcell := List.sizeOf_lt_of_mem (List.mem_map_of_mem (f := value) hc)
  have hcells := List.sizeOf_lt_of_mem (List.mem_map_of_mem (f := List.map value) hrow)
  rw [Value.matrix.sizeOf_spec]
  omega

/-- **Expressions that mean the same have results that are alike**, by recursion over what they
mean. -/
theorem alike_of_value_eq (e e' : Expr Float) (h : e.value = e'.value) :
    Alike e.simplify e'.simplify := by
  -- what an expression means tells a number from a matrix, so the two results are of one kind
  rcases simplify_kind e with ⟨v, s, htree, hvalue⟩ | ⟨rows, s, hrows, htree, hvalue⟩
  · rcases simplify_kind e' with ⟨v', s', htree', hvalue'⟩ | ⟨rows', s', hrows', htree', hvalue'⟩
    · rw [hvalue, hvalue'] at h
      rw [htree, htree']
      cases h
      exact .number (.inl rfl)
    · rw [hvalue, hvalue'] at h
      cases h
  · rcases simplify_kind e' with ⟨v', s', htree', hvalue'⟩ | ⟨rows', s', hrows', htree', hvalue'⟩
    · rw [hvalue, hvalue'] at h
      cases h
    · have hcells : rows.map (List.map value) = rows'.map (List.map value) := by
        rw [hvalue, hvalue'] at h
        exact Value.matrix.inj h
      rw [htree, htree']
      refine .matrix hrows hrows' ?_ ?_
      · rw [← shape_map value rows, ← shape_map value rows', hcells]
      · intro i j c c' hc hc'
        -- the recursion is on the value and not on the expression: a cell of the result need not be
        -- a node of `e`, but what it means is a part of what `e` means
        have hsmaller : sizeOf c.value < sizeOf e.value := by
          rw [hvalue]
          exact sizeOf_value_lt hc
        exact alike_of_value_eq c c' (value_eq_of_elementAt hcells hc hc')
termination_by sizeOf e.value

/-- **Results are alike exactly when the expressions mean the same.** -/
theorem alike_simplify_iff (e e' : Expr Float) :
    Alike e.simplify e'.simplify ↔ e.value = e'.value := by
  constructor
  · intro h
    rw [← value_simplify e, ← value_simplify e']
    exact h.value_eq
  · exact alike_of_value_eq e e'

/-! ## What surrounds an expression -/

/-- An expression with a hole in it. -/
inductive Context (α : Type) where
  | hole
  | paren (inner : Context α) (span : Span)
  /-- The hole is in an element of a matrix, with other elements around it. -/
  | element (above : List (List (Expr α))) (before : List (Expr α)) (inner : Context α)
      (after : List (Expr α)) (below : List (List (Expr α))) (span : Span)
  | left (op : Operator) (opSpan : Span) (inner : Context α) (operand : Expr α) (span : Span)
  | right (op : Operator) (opSpan : Span) (operand : Expr α) (inner : Context α) (span : Span)
  | unsupportedLeft (sign : String) (opSpan : Span) (inner : Context α) (operand : Expr α)
      (span : Span)
  | unsupportedRight (sign : String) (opSpan : Span) (operand : Expr α) (inner : Context α)
      (span : Span)

namespace Context

variable {α : Type}

def fill (e : Expr α) : Context α → Expr α
  | hole => e
  | paren inner s => .paren (inner.fill e) s
  | element above before inner after below s =>
    .matrix (above ++ (before ++ inner.fill e :: after) :: below) s
  | left op os inner operand s => .binary op os (inner.fill e) operand s
  | right op os operand inner s => .binary op os operand (inner.fill e) s
  | unsupportedLeft sign os inner operand s => .unsupported sign os (inner.fill e) operand s
  | unsupportedRight sign os operand inner s => .unsupported sign os operand (inner.fill e) s

/-- The hole is the exponent of a power itself, not only a part of it. -/
def atExponent : Context α → Bool
  | hole => false
  | paren inner _ => inner.atExponent
  | element _ _ inner _ _ _ => inner.atExponent
  | left _ _ inner _ _ => inner.atExponent
  | right op _ _ hole _ => op == .pow
  | right _ _ _ inner _ => inner.atExponent
  | unsupportedLeft _ _ inner _ _ => inner.atExponent
  | unsupportedRight _ _ _ inner _ => inner.atExponent

/-- A power may look at what is put into the hole only if that is its exponent. -/
theorem symbol?_fill_eq {e₁ e₂ : Expr α} {op : Operator} {os : Span} {operand : Expr α}
    {C : Context α} {s : Span} (hop : op = .pow)
    (h : (right op os operand C s).atExponent = true → e₁.symbol? = none ∧ e₂.symbol? = none) :
    (C.fill e₁).symbol? = none ∧ (C.fill e₂).symbol? = none := by
  cases C with
  | hole => exact h (by rw [hop]; rfl)
  | _ => exact ⟨rfl, rfl⟩

/-- The values of two operations of one kind are equal when those of their operands are. -/
theorem value_binary_congr [Scalar α] {op : Operator} {left₁ left₂ right₁ right₂ : Expr α}
    (hleft : left₁.value = left₂.value) (hright : right₁.value = right₂.value)
    (hsymbol : op = .pow → right₁.symbol? = right₂.symbol?) (os s : Span) :
    (binary op os left₁ right₁ s).value = (binary op os left₂ right₂ s).value := by
  rcases mark_or_operation op right₁ with ⟨rfl, text, hmark⟩ | hoperation
  · have hmark' : right₂.symbol? = some text := (hsymbol rfl).symm.trans hmark
    rw [value_mark hmark, value_mark hmark', hleft]
  · have hoperation' : op = .pow → right₂.symbol? = none :=
      fun hop => (hsymbol hop).symm.trans (hoperation hop)
    rw [value_binary hoperation, value_binary hoperation', hleft, hright]

/-- **What a filled context means depends only on what is put into it means**, except where the
hole is an exponent, which must not be a mark. -/
theorem value_fill [Scalar α] (C : Context α) {e₁ e₂ : Expr α} (h : e₁.value = e₂.value)
    (hmark : C.atExponent = true → e₁.symbol? = none ∧ e₂.symbol? = none) :
    (C.fill e₁).value = (C.fill e₂).value := by
  induction C with
  | hole => exact h
  | paren inner s ih =>
      rw [fill, fill, value, value]
      exact ih hmark
  | element above before inner after below s ih =>
      rw [fill, fill, value_matrix, value_matrix]
      simp only [List.map_append, List.map_cons, ih hmark]
  | left op os inner operand s ih =>
      exact value_binary_congr (ih hmark) rfl (fun _ => rfl) os s
  | right op os operand inner s ih =>
      -- the exponent is looked at before it is evaluated: a mark such as `T` there decides what the
      -- power does, so the two fillings must agree on being none
      have hinner : inner.atExponent = true → e₁.symbol? = none ∧ e₂.symbol? = none := by
        cases inner with
        | hole => intro hfalse; cases hfalse
        | _ => exact hmark
      refine value_binary_congr rfl (ih hinner) ?_ os s
      intro hop
      obtain ⟨h₁, h₂⟩ := symbol?_fill_eq hop hmark
      rw [h₁, h₂]
  | unsupportedLeft sign os inner operand s ih => rfl
  | unsupportedRight sign os operand inner s ih => rfl

end Context

/-! ## Compositionality -/

/-- **Evaluation is compositional.** Expressions whose results are alike may be exchanged in every
context: the results of the whole are alike, too. In particular an expression may be replaced by its
own result. Only an exponent is looked at before it is evaluated, because the mark `T` has a meaning
there that its result has lost; so in the place of an exponent neither expression may be a mark. -/
theorem simplify_fill_alike :
    (∀ (C : Context Float) (e₁ e₂ : Expr Float), Alike e₁.simplify e₂.simplify →
      (C.atExponent = true → e₁.symbol? = none ∧ e₂.symbol? = none) →
      Alike (C.fill e₁).simplify (C.fill e₂).simplify) ∧
    (∀ (C : Context Float) (e : Expr Float), (C.atExponent = true → e.symbol? = none) →
      Alike (C.fill e).simplify (C.fill e.simplify).simplify) := by
  constructor
  · intro C e₁ e₂ h hmark
    rw [alike_simplify_iff] at h ⊢
    exact C.value_fill h hmark
  · intro C e hmark
    rw [alike_simplify_iff]
    refine C.value_fill (value_simplify e).symm ?_
    intro hexponent
    exact ⟨hmark hexponent, symbol?_simplify e⟩

/-- The context `[5, [2]^_]`, where the hole is an exponent. -/
def Context.powerInRow : Context Float :=
  let power := .right .pow ⟨6, 7⟩ (.matrix [[.number 2 ⟨4, 5⟩]] ⟨3, 6⟩) .hole ⟨3, 8⟩
  .element [] [.number 5 ⟨1, 2⟩] power [] [] ⟨0, 9⟩

def onePlusTwo : Expr Float := .binary .add ⟨1, 2⟩ (.number 1 ⟨0, 1⟩) (.number 2 ⟨2, 3⟩) ⟨0, 3⟩

theorem simplify_fill_alike_exponent :
    Context.powerInRow.atExponent = true ∧
      Alike (Context.powerInRow.fill onePlusTwo).simplify
        (Context.powerInRow.fill (.number 3 ⟨0, 1⟩)).simplify ∧
      Alike (Context.powerInRow.fill onePlusTwo).simplify
        (Context.powerInRow.fill onePlusTwo.simplify).simplify := by
  have hsum : Alike onePlusTwo.simplify (number 3 ⟨0, 1⟩ : Expr Float).simplify :=
    .number (.inl (by decide +kernel))
  exact ⟨rfl, simplify_fill_alike.1 _ _ _ hsum (fun _ => ⟨rfl, rfl⟩),
    simplify_fill_alike.2 _ _ (fun _ => rfl)⟩

end Expr
end LinearCalc
