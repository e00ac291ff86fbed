import LinearCalc.Grid

set_option autoImplicit false

/-! # What is not a number

Among the floating-point numbers there is exactly one that is not a number (`eq_nan`), and it is
equal to none, not even to itself. The four operations and the square root give it back as soon as
an operand is one; a power does so too, except that zero as the exponent and one as the base win
over it (`isNaN_floatPow_left`).
-/

namespace LinearCalc

open Float.Model (UnpackedFloat)

/-- What is not a number, as a floating-point number taken apart. -/
theorem isNaN_iff_unpack (x : Float) : x.isNaN = true ↔ x.toModel.unpack = .notANumber := by
  show x.toModel.unpack.isNaN = true ↔ _
  cases x.toModel.unpack with
  | notANumber => exact ⟨fun _ => rfl, fun _ => rfl⟩
  | _ =>
      constructor
      · intro h
        cases h
      · intro h
        cases h

theorem isNaN_nan : Scalar.isNaN (Scalar.nan : Float) = true := by decide +kernel

/-- Putting together what is not a number. -/
theorem isNaN_pack {u : UnpackedFloat} (h : u = .notANumber) :
    (Float.ofModel (Float.Model.pack u)).isNaN = true := by
  rw [h]
  rfl

/-- **There is one floating-point number that is not a number.** -/
theorem eq_nan {x : Float} (h : x.isNaN = true) : x = 0.0 / 0.0 := by
  have hunpack := (isNaN_iff_unpack x).1 h
  obtain ⟨⟨bits, valid⟩⟩ := x
  -- only the greatest exponent with a mantissa is no number, and of those bits the model keeps one
  -- pattern
  have hpacked : bits.toBitVec = UnpackedFloat.packedNaN .binary64 := by
    unfold Float.Model.unpack UnpackedFloat.unpack at hunpack
    dsimp only at hunpack
    by_cases hexponent : @UnpackedFloat.unpackExponent .binary64 bits.toBitVec = -1#_
    · rw [if_pos hexponent] at hunpack
      by_cases hmantissa : @UnpackedFloat.unpackMantissa .binary64 bits.toBitVec = 0#_
      · rw [if_pos hmantissa] at hunpack
        cases hunpack
      · exact valid.eq_packedNaN hexponent hmantissa
    · rw [if_neg hexponent] at hunpack
      by_cases hzero : @UnpackedFloat.unpackExponent .binary64 bits.toBitVec = 0#_
      · rw [if_pos hzero] at hunpack
        by_cases hmantissa : @UnpackedFloat.unpackMantissa .binary64 bits.toBitVec = 0#_
        · rw [dif_pos hmantissa] at hunpack
          cases hunpack
        · rw [dif_neg hmantissa] at hunpack
          cases hunpack
      · rw [if_neg hzero] at hunpack
        cases hunpack
  have hbits : bits = UInt64.ofBitVec (UnpackedFloat.packedNaN .binary64) := by
    rw [← hpacked]
  have hquotient : (0.0 / 0.0 : Float) = .ofModel (.pack .notANumber) := by decide +kernel
  rw [hquotient]
  subst hbits
  rfl

/-! ## Operations -/

/-- An operation that takes apart, computes and puts together again, where the computing gives
what is not a number for each operand that is none. -/
theorem isNaN_operation (f : UnpackedFloat → UnpackedFloat → UnpackedFloat)
    (hleft : ∀ v, f .notANumber v = .notANumber) (hright : ∀ u, f u .notANumber = .notANumber)
    {a b : Float} (h : a.isNaN = true ∨ b.isNaN = true) :
    (Float.ofModel (Float.Model.pack (f a.toModel.unpack b.toModel.unpack))).isNaN = true := by
  refine isNaN_pack ?_
  rcases h with h | h
  · rw [(isNaN_iff_unpack a).1 h, hleft]
  · rw [(isNaN_iff_unpack b).1 h, hright]

theorem isNaN_add {a b : Float} (h : a.isNaN = true ∨ b.isNaN = true) : (a + b).isNaN = true :=
  isNaN_operation (UnpackedFloat.add .binary64) (fun _ => rfl) (fun u => by cases u <;> rfl) h

theorem isNaN_sub {a b : Float} (h : a.isNaN = true ∨ b.isNaN = true) : (a - b).isNaN = true :=
  isNaN_operation (UnpackedFloat.sub .binary64) (fun _ => rfl) (fun u => by cases u <;> rfl) h

theorem isNaN_mul {a b : Float} (h : a.isNaN = true ∨ b.isNaN = true) : (a * b).isNaN = true :=
  isNaN_operation (UnpackedFloat.mul .binary64) (fun _ => rfl) (fun u => by cases u <;> rfl) h

theorem isNaN_div {a b : Float} (h : a.isNaN = true ∨ b.isNaN = true) : (a / b).isNaN = true :=
  isNaN_operation (UnpackedFloat.div .binary64) (fun _ => rfl) (fun u => by cases u <;> rfl) h

theorem isNaN_sqrt {a : Float} (h : a.isNaN = true) : a.sqrt.isNaN = true := by
  refine isNaN_pack ?_
  rw [(isNaN_iff_unpack a).1 h]
  rfl

/-- What is not a number is equal to none. -/
theorem beq_eq_false_of_isNaN {a : Float} (h : a.isNaN = true) (b : Float) : (a == b) = false := by
  show a.toModel.unpack.beq b.toModel.unpack = false
  rw [(isNaN_iff_unpack a).1 h]
  rfl

/-! ## Powers -/

/-- A power of what is not a number is none, unless the exponent is zero. -/
theorem isNaN_floatPow_left {a : Float} (h : a.isNaN = true) (b : Float) :
    (floatPow a b).isNaN = !(b == 0) := by
  unfold floatPow
  by_cases h0 : (b == 0) = true
  · rw [if_pos h0, h0]
    decide +kernel
  · rw [if_neg h0, Bool.eq_false_iff.2 h0]
    split
    · exact h
    · split
      -- the square, the inverse and the root have their own branches, and each passes it on
      · exact isNaN_mul (.inl h)
      · split
        · exact isNaN_div (.inr h)
        · split
          · exact isNaN_sqrt h
          · have h1 := beq_eq_false_of_isNaN h 1
            simp only [h1, h, Bool.true_or, Bool.false_eq_true, if_true, if_false]
            decide +kernel

/-- A power whose exponent is not a number is none, unless the base is one. -/
theorem isNaN_floatPow_right (a : Float) {b : Float} (h : b.isNaN = true) :
    (floatPow a b).isNaN = !(a == 1) := by
  unfold floatPow
  simp only [beq_eq_false_of_isNaN h, h, Bool.or_true, Bool.false_eq_true, if_true, if_false]
  by_cases h1 : (a == 1) = true
  · rw [if_pos h1, h1]
    decide +kernel
  · rw [if_neg h1, Bool.eq_false_iff.2 h1]
    decide +kernel

end LinearCalc
