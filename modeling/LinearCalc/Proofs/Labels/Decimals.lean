import LinearCalc.Proofs.Digits
import LinearCalc.Proofs.Scanning.LongestWords
import Mathlib.Algebra.Order.Field.Basic
import Mathlib.Algebra.Order.Ring.Rat

set_option autoImplicit false

/-! # Plain decimals

A plain decimal is a sign, digits, and maybe a point and more digits. Of all that stand for one
number there is a shortest one: it has no zero that could be left out, no point without need, and no
sign in front of zero (`Canonical.length_lt`).
-/

namespace LinearCalc

/-! ## Plain decimals -/

/-- A number written with a sign, digits, and maybe a point and more digits. -/
structure PlainDecimal where
  negative : Bool
  whole : List Char
  /-- The digits after the point, if there is one. -/
  fraction : Option (List Char)

namespace PlainDecimal

/-- A point and the digits after it. -/
def pointed : Option (List Char) → List Char
  | none => []
  | some digits => '.' :: digits

variable (d : PlainDecimal)

def places : List Char := d.fraction.getD []

def text : List Char :=
  (if d.negative then ['-'] else []) ++ (d.whole ++ pointed d.fraction)

def value : ℚ :=
  Binary64.signed d.negative (digitsValue (d.whole ++ d.places)) / 10 ^ d.places.length

/-- A decimal consists of digits, and there is one before the point. -/
structure Proper : Prop where
  whole_ne_nil : d.whole ≠ []
  whole_digits : AllDigits d.whole
  places_digits : AllDigits d.places

/-- Nothing of the decimal can be left out: no zero in front of other digits, no zero at the end of
its places, no point without digits after it, and no sign in front of zero. -/
structure Canonical : Prop extends Proper d where
  no_leading : ∀ rest, d.whole = '0' :: rest → rest = []
  no_trailing : ∀ digits, d.fraction = some digits → digits ≠ [] ∧ digits.getLast? ≠ some '0'
  no_sign : d.negative = true → d.value ≠ 0

end PlainDecimal

open PlainDecimal

variable {d e : PlainDecimal}

theorem natAbs_signed (negative : Bool) (n : ℕ) : (Binary64.signed negative n).natAbs = n := by
  cases negative
  · exact Int.natAbs_natCast n
  · exact Int.natAbs_neg n

namespace PlainDecimal

/-! ## Decimals with one value -/

theorem places_of_none (h : d.fraction = none) : d.places = [] := by rw [places, h]; rfl

theorem places_of_some {digits : List Char} (h : d.fraction = some digits) :
    d.places = digits := by rw [places, h]; rfl

/-- Decimals with one value have the same digits, if zeros are added behind them. -/
theorem scaled_eq_of_value_eq (h : d.value = e.value) :
    10 ^ e.places.length * digitsValue (d.whole ++ d.places)
      = 10 ^ d.places.length * digitsValue (e.whole ++ e.places) := by
  have hleft : (10 : ℚ) ^ d.places.length ≠ 0 := by positivity
  have hright : (10 : ℚ) ^ e.places.length ≠ 0 := by positivity
  rw [value, value, div_eq_div_iff hleft hright] at h
  have hsigned : Binary64.signed d.negative (digitsValue (d.whole ++ d.places))
      * 10 ^ e.places.length
      = Binary64.signed e.negative (digitsValue (e.whole ++ e.places))
        * 10 ^ d.places.length := by exact_mod_cast h
  have habs := congrArg Int.natAbs hsigned
  rwa [Int.natAbs_mul, Int.natAbs_mul, natAbs_signed, natAbs_signed, Int.natAbs_pow,
    Int.natAbs_pow, Nat.mul_comm, Nat.mul_comm _ (Int.natAbs 10 ^ _)] at habs

/-- **Decimals with one value have the same digits**, up to zeros at both ends. -/
theorem Proper.padded_eq (hd : d.Proper) (he : e.Proper) (h : d.value = e.value) :
    List.replicate e.whole.length '0' ++ d.whole = List.replicate d.whole.length '0' ++ e.whole ∧
    d.places ++ List.replicate e.places.length '0'
      = e.places ++ List.replicate d.places.length '0' := by
  -- padded on both sides the two have equally many digits and one value, so they are the same row
  -- of digits
  have hrow : (List.replicate e.whole.length '0' ++ d.whole)
        ++ (d.places ++ List.replicate e.places.length '0')
      = (List.replicate d.whole.length '0' ++ e.whole)
        ++ (e.places ++ List.replicate d.places.length '0') := by
    refine AllDigits.eq_of_value_eq ?_ ?_ ?_ ?_
    · exact ((allDigits_zeros _).append hd.whole_digits).append
        (hd.places_digits.append (allDigits_zeros _))
    · exact ((allDigits_zeros _).append he.whole_digits).append
        (he.places_digits.append (allDigits_zeros _))
    · simp only [List.length_append, List.length_replicate]
      omega
    · rw [← List.append_assoc, ← List.append_assoc, digitsValue_append_zeros,
        digitsValue_append_zeros, List.append_assoc, List.append_assoc, digitsValue_zeros_append,
        digitsValue_zeros_append]
      exact scaled_eq_of_value_eq h
  refine List.append_inj hrow ?_
  simp only [List.length_append, List.length_replicate]
  omega

theorem value_nonneg (h : d.negative = false) : 0 ≤ d.value := by
  rw [value, h]
  exact div_nonneg (Int.cast_nonneg (Int.natCast_nonneg _)) (by positivity)

theorem value_nonpos (h : d.negative = true) : d.value ≤ 0 := by
  rw [value, h]
  exact div_nonpos_of_nonpos_of_nonneg
    (Int.cast_nonpos.2 (Int.neg_nonpos_of_nonneg (Int.natCast_nonneg _))) (by positivity)

/-- Decimals with one value that is not zero have one sign. -/
theorem negative_eq_of_value_eq (h : d.value = e.value) (hzero : d.value ≠ 0) :
    d.negative = e.negative := by
  cases hd : d.negative <;> cases he : e.negative
  · rfl
  · exact absurd ((h ▸ value_nonpos he).antisymm (value_nonneg hd)) hzero
  · exact absurd ((value_nonpos hd).antisymm (h ▸ value_nonneg he)) hzero
  · rfl

/-! ## The shortest decimal -/

/-- Without zeros at its end, a row is the beginning of a row that differs in such zeros only. -/
theorem isPrefix_of_append_zeros {a b : List Char} {m n : ℕ} (ha : a.getLast? ≠ some '0')
    (h : a ++ List.replicate m '0' = b ++ List.replicate n '0') : a <+: b := by
  rcases List.append_eq_append_iff.1 h with ⟨more, rfl, -⟩ | ⟨more, rfl, hzeros⟩
  · exact List.prefix_append a more
  · rcases List.eq_nil_or_concat more with rfl | ⟨front, last, rfl⟩
    · rw [List.append_nil]
    · have hlast : last ∈ List.replicate n '0' := by simp [hzeros]
      rw [List.eq_of_mem_replicate hlast, List.concat_eq_append, ← List.append_assoc,
        List.getLast?_concat] at ha
      exact absurd rfl ha

/-- Without a needless zero in front, a row is the end of a row that differs in such zeros only. -/
theorem isSuffix_of_zeros_append {a b : List Char} {m n : ℕ}
    (ha : ∀ rest, a = '0' :: rest → rest = []) (hb : b ≠ [])
    (h : List.replicate m '0' ++ a = List.replicate n '0' ++ b) : a <:+ b := by
  rcases List.append_eq_append_iff.1 h with ⟨more, hzeros, rfl⟩ | ⟨more, -, rfl⟩
  · cases more with
    | nil => exact List.suffix_refl b
    | cons c more =>
        have hc : c ∈ List.replicate n '0' := by simp [hzeros]
        rw [List.eq_of_mem_replicate hc] at ha
        exact absurd (List.append_eq_nil_iff.1 (ha _ rfl)).2 hb
  · exact List.suffix_append more a

theorem Canonical.getLast?_places (h : d.Canonical) : d.places.getLast? ≠ some '0' := by
  cases hfraction : d.fraction with
  | none =>
      rw [places_of_none hfraction]
      simp
  | some digits =>
      rw [places_of_some hfraction]
      exact (h.no_trailing digits hfraction).2

theorem Canonical.fraction_cases (h : d.Canonical) (hplaces : d.places <+: e.places) :
    d.fraction = e.fraction ∨ (pointed d.fraction).length < (pointed e.fraction).length := by
  cases hd : d.fraction with
  | none =>
      cases he : e.fraction with
      | none => exact .inl rfl
      | some more => exact .inr (Nat.succ_pos _)
  | some digits =>
      rw [places_of_some hd] at hplaces
      cases he : e.fraction with
      | none =>
          rw [places_of_none he] at hplaces
          exact absurd (List.prefix_nil.1 hplaces) (h.no_trailing digits hd).1
      | some more =>
          rw [places_of_some he] at hplaces
          -- the one without zeros at its end is shorter, unless there were none to take away
          rcases hplaces.length_le.eq_or_lt with heq | hlt
          · exact .inl (congrArg some (hplaces.eq_of_length heq))
          · exact .inr (Nat.succ_lt_succ hlt)

theorem Canonical.sign_cases (h : d.Canonical) (hvalue : d.value = e.value) :
    d.negative = e.negative ∨ d.negative.toNat < e.negative.toNat := by
  cases hd : d.negative with
  | false =>
      cases he : e.negative with
      | false => exact .inl rfl
      | true => exact .inr Nat.one_pos
  | true => exact .inl (hd.symm.trans (negative_eq_of_value_eq hvalue (h.no_sign hd)))

theorem length_text (d : PlainDecimal) :
    d.text.length = d.negative.toNat + (d.whole.length + (pointed d.fraction).length) := by
  rw [text, List.length_append, List.length_append]
  cases d.negative <;> rfl

/-- **A canonical decimal is shorter than all others with its value.** -/
theorem Canonical.length_lt (h : d.Canonical) (he : e.Proper) (hvalue : e.value = d.value)
    (hne : e ≠ d) : d.text.length < e.text.length := by
  obtain ⟨hwhole, hplaces⟩ := h.toProper.padded_eq he hvalue.symm
  have hsuffix := isSuffix_of_zeros_append h.no_leading he.whole_ne_nil hwhole
  have hsign := h.sign_cases hvalue.symm
  have hfraction := h.fraction_cases (isPrefix_of_append_zeros h.getLast?_places hplaces)
  have hle := hsuffix.length_le
  rw [length_text, length_text]
  rcases hfraction with hfraction | hlt
  · rcases hsign with hsign | hlt
    · rcases hle.eq_or_lt with heq | hlt
      · -- nothing is left in which the decimals could differ
        have hequal : e = d := by
          cases d
          cases e
          cases hsign
          cases hfraction
          cases hsuffix.eq_of_length heq
          rfl
        exact absurd hequal hne
      · rw [hfraction, hsign]
        omega
    · rw [hfraction]
      omega
  · rcases hsign with hsign | hlt'
    · rw [hsign]
      omega
    · omega

/-- **There is one canonical decimal for a number.** -/
theorem Canonical.eq_of_value_eq (hd : d.Canonical) (he : e.Canonical) (h : d.value = e.value) :
    d = e := by
  by_cases heq : d = e
  · exact heq
  · have hshorter := he.length_lt hd.toProper h heq
    have hlonger := hd.length_lt he.toProper h.symm (Ne.symm heq)
    omega

/-! ## Reading a decimal -/

theorem noDigit_pointed (fraction : Option (List Char)) : NoDigit (pointed fraction).head? := by
  cases fraction with
  | none => rintro c ⟨⟩
  | some digits =>
      rintro c ⟨⟩
      rfl

theorem pointed_injective : Function.Injective pointed := by
  intro a b h
  cases a <;> cases b <;> cases h <;> rfl

/-- **A decimal can be read off its characters.** -/
theorem Proper.eq_of_text_eq (hd : d.Proper) (he : e.Proper) (h : d.text = e.text) : d = e := by
  -- a sign is no digit
  have hsign : ∀ {a b : PlainDecimal}, a.Proper → a.whole ++ pointed a.fraction
      ≠ '-' :: (b.whole ++ pointed b.fraction) := by
    intro a b ha heq
    cases hwhole : a.whole with
    | nil => exact ha.whole_ne_nil hwhole
    | cons c rest =>
        rw [hwhole, List.cons_append, List.cons.injEq] at heq
        have hc := ha.whole_digits c (by rw [hwhole]; exact List.mem_cons_self)
        rw [heq.1] at hc
        cases hc
  have hrest : d.whole ++ pointed d.fraction = e.whole ++ pointed e.fraction →
      d.whole = e.whole ∧ d.fraction = e.fraction := by
    intro heq
    obtain ⟨htake, hdrop⟩ := takeWhile_digits hd.whole_digits (noDigit_pointed d.fraction)
    obtain ⟨htake', hdrop'⟩ := takeWhile_digits he.whole_digits (noDigit_pointed e.fraction)
    rw [heq, htake'] at htake
    rw [heq, hdrop'] at hdrop
    exact ⟨htake.symm, (pointed_injective hdrop).symm⟩
  obtain ⟨negative, whole, fraction⟩ := d
  obtain ⟨negative', whole', fraction'⟩ := e
  cases negative <;> cases negative'
  · obtain ⟨rfl, rfl⟩ := hrest h
    rfl
  · exact absurd h (hsign hd)
  · exact absurd h.symm (hsign he)
  · obtain ⟨rfl, rfl⟩ := hrest (List.cons.inj h).2
    rfl

end PlainDecimal

end LinearCalc
