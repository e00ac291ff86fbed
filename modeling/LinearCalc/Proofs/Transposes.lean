import LinearCalc.Proofs.Composition
import LinearCalc.Proofs.Floats.Packing
import LinearCalc.Proofs.Layout.Erasure
import LinearCalc.Proofs.Poisoning
import LinearCalc.Proofs.Transposes.Values

set_option autoImplicit false

/-! # The laws of the transpose

Transposing twice gives the elements of a matrix back, as they were typed; sums, differences,
products, multiples, quotients and cross products may be transposed before or after they are
computed; and the dot product of columns is that of the rows that turn into them (`transpose_laws`).
Where the one side of a law makes no sense, the other does not either. Of floating-point arithmetic
only one law is needed: factors may be exchanged (`float_mul_comm`).
-/

namespace LinearCalc

open Float.Model (UnpackedFloat)

/-! ## Factors -/

theorem sign_mul_comm (s s' : UnpackedFloat.Sign) : s * s' = s' * s := by
  cases s <;> cases s' <;> rfl

theorem unpacked_mul_comm (x y : UnpackedFloat) :
    UnpackedFloat.mul .binary64 x y = UnpackedFloat.mul .binary64 y x := by
  have hinfinity (s s' : UnpackedFloat.Sign) :
      UnpackedFloat.infinity (s * s') = .infinity (s' * s) := congrArg _ (sign_mul_comm s s')
  have hzero (s s' : UnpackedFloat.Sign) :
      UnpackedFloat.zero (s * s') = .zero (s' * s) := congrArg _ (sign_mul_comm s s')
  -- the signs and the mantissas commute; the cases are those of the definition, which looks at both
  -- numbers
  cases x with
  | notANumber => cases y <;> rfl
  | infinity s =>
      cases y with
      | notANumber | zero _ => rfl
      | infinity s' | finite s' _ _ _ => exact hinfinity s s'
  | zero s =>
      cases y with
      | notANumber | infinity _ => rfl
      | zero s' | finite s' _ _ _ => exact hzero s s'
  | finite s m e h =>
      cases y with
      | notANumber => rfl
      | infinity s' => exact hinfinity s s'
      | zero s' => exact hzero s s'
      | finite s' m' e' h' =>
          rw [mul_finite, mul_finite, sign_mul_comm s, Nat.mul_comm m, Int.add_comm e]

/-- **Factors may be exchanged.** -/
theorem float_mul_comm (x y : Float) : x * y = y * x := by
  rw [float_mul_eq, float_mul_eq, unpacked_mul_comm]

namespace Expr

/-! ## Expressions without places -/

/-- An operation, without places. -/
def operation (op : Operator) (left right : Expr Float) : Expr Float :=
  binary op .nowhere left right .nowhere

def turned (e : Expr Float) : Expr Float :=
  operation .pow e (symbol transposeSymbol .nowhere)

/-- Two expressions have results that are alike, and none just when the other has none, wherever
they stand in a text. -/
def SameResult (x y : Expr Float) : Prop :=
  ∀ x' y' : Expr Float, x'.erase = x.erase → y'.erase = y.erase →
    Alike x'.simplify y'.simplify ∧ x'.simplify.isInvalid = y'.simplify.isInvalid

theorem sameResult_of_value_eq {x y : Expr Float} (h : x.value = y.value) : SameResult x y := by
  intro x' y' hx hy
  have hvalue : x'.value = y'.value := by
    rw [value_eq_of_erase_eq hx, h, value_eq_of_erase_eq hy]
  refine ⟨(alike_simplify_iff x' y').2 hvalue, ?_⟩
  rw [isInvalid_simplify, isInvalid_simplify, hvalue]

theorem value_turned (e : Expr Float) : e.turned.value = e.value.transposed := by
  unfold turned operation
  rw [value_mark rfl, if_pos rfl]

theorem value_operation {op : Operator} (hop : op ≠ .pow) (left right : Expr Float) :
    (operation op left right).value = (op.apply left.value right.value).value left.value :=
  value_binary (fun h => absurd h hop) .nowhere left .nowhere

/-! ## Laws -/

/-- An operation whose result is turned when its operands are. -/
theorem sameResult_turned {op : Operator} (hop : op ≠ .pow) {left right left' right' : Expr Float}
    (hturned : op.apply left'.value right'.value
      = (op.apply left.value right.value).transposed) :
    SameResult (operation op left right).turned (operation op left' right') := by
  refine sameResult_of_value_eq ?_
  have hown : (op.apply left.value right.value).Own :=
    op.apply_own (fun h => absurd h hop)
  rw [value_turned, value_operation hop, value_operation hop, hturned]
  exact hown.value_transposed left.value left'.value

/-- **Transposing twice gives the elements back**, not only what they mean. -/
theorem simplify_turned_twice {e : Expr Float} {rows : List (List (Expr Float))} {s : Span}
    (h : e.simplify = matrix rows s) (os ts u os' ts' u' : Span) :
    (binary .pow os' (binary .pow os e (symbol transposeSymbol ts) u)
      (symbol transposeSymbol ts') u').simplify = matrix rows u' := by
  obtain ⟨m, n, hm, hn, hrect⟩ := (rectangular_iff rows).1 (value_of_simplify_matrix h).1
  rw [simplify_mark rfl, if_pos rfl, simplify_mark rfl, if_pos rfl, h, transposed, transposed,
    transpose_transpose hrect hm hn]

/-- **The laws of the transpose**, for expressions `a` and `b` that evaluate to matrices and `c`
that evaluates to a number: the transpose undoes itself; it goes through sums, differences, products
(which it turns around), multiples, quotients and cross products; and dot products do not see it. No
shapes are asked for, since where an operation does not apply on one side it does not on the other.
For floating-point cells the law of products needs that multiplication commutes and that both sides
add up the same products in the same order. -/
theorem transpose_laws {a b c : Expr Float} {rows rows' : List (List (Expr Float))} {s s' t : Span}
    {v : Float} (ha : a.simplify = matrix rows s) (hb : b.simplify = matrix rows' s')
    (hc : c.simplify = number v t) :
    (∀ os ts u os' ts' u' : Span,
      (binary .pow os' (binary .pow os a (symbol transposeSymbol ts) u)
        (symbol transposeSymbol ts') u').simplify = matrix rows u') ∧
    SameResult (operation .add a b).turned (operation .add a.turned b.turned) ∧
    SameResult (operation .sub a b).turned (operation .sub a.turned b.turned) ∧
    SameResult (operation .mul a b).turned (operation .mul b.turned a.turned) ∧
    SameResult (operation .mul c a).turned (operation .mul c a.turned) ∧
    SameResult (operation .div a c).turned (operation .div a.turned c) ∧
    SameResult (operation .cross a b).turned (operation .cross a.turned b.turned) ∧
    SameResult (operation .dot a b) (operation .dot a.turned b.turned) := by
  have hla := value_rectangular a
  have hlb := value_rectangular b
  have hva := (value_of_simplify_matrix ha).2
  have hvb := (value_of_simplify_matrix hb).2
  have hvc : c.value = .scalar v := by
    rw [← value_simplify c, hc, value]
  rw [hva] at hla
  rw [hvb] at hlb
  -- each law is one of values; only the law of dot products has no transpose around the result
  refine ⟨simplify_turned_twice ha, ?_, ?_, ?_, ?_, ?_, ?_, ?_⟩
  · refine sameResult_turned (by decide) ?_
    rw [value_turned, value_turned, hva, hvb]
    exact Value.elementwise_transposed _ hla hlb
  · refine sameResult_turned (by decide) ?_
    rw [value_turned, value_turned, hva, hvb]
    exact Value.elementwise_transposed _ hla hlb
  · refine sameResult_turned (by decide) ?_
    rw [value_turned, value_turned, hva, hvb]
    exact Value.multiply_transposed float_mul_comm hla hlb
  · refine sameResult_turned (by decide) ?_
    rw [value_turned, hva, hvc]
    exact Value.multiply_scalar_transposed v hla
  · refine sameResult_turned (by decide) ?_
    rw [value_turned, hva, hvc]
    exact Value.divide_transposed v hla
  · refine sameResult_turned (by decide) ?_
    rw [value_turned, value_turned, hva, hvb]
    exact Value.crossProduct_transposed hla hlb
  · refine sameResult_of_value_eq ?_
    -- a first power would be the left operand itself, which differs on the two sides: a dot product
    -- is never one
    have hown := Value.dotProduct_own a.value b.value
    have hdot : (Value.dotProduct a.turned.value b.turned.value)
        = Value.dotProduct a.value b.value := by
      rw [value_turned, value_turned, hva, hvb]
      exact Value.dotProduct_transposed hla hlb
    rw [value_operation (by decide), value_operation (by decide)]
    show (Value.dotProduct a.value b.value).value a.value
      = (Value.dotProduct a.turned.value b.turned.value).value a.turned.value
    rw [hdot]
    exact hown.value_eq a.value a.turned.value

def typedRow : Expr Float :=
  matrix [[number 1 ⟨1, 2⟩, number 2 ⟨3, 4⟩, number 3 ⟨5, 6⟩]] ⟨0, 7⟩

theorem transpose_laws_row :
    (typedRow.simplify = typedRow ∧ (number 2 ⟨0, 1⟩ : Expr Float).simplify = number 2 ⟨0, 1⟩) ∧
      SameResult (operation .cross typedRow typedRow).turned
        (operation .cross typedRow.turned typedRow.turned) ∧
      SameResult (operation .div typedRow (number 2 ⟨0, 1⟩)).turned
        (operation .div typedRow.turned (number 2 ⟨0, 1⟩)) := by
  have hrow : typedRow.simplify = typedRow := rfl
  have htwo : (number 2 ⟨0, 1⟩ : Expr Float).simplify = number 2 ⟨0, 1⟩ := rfl
  obtain ⟨-, -, -, -, -, hdiv, hcross, -⟩ := transpose_laws hrow hrow htwo
  exact ⟨⟨hrow, htwo⟩, hcross, hdiv⟩

end Expr
end LinearCalc
