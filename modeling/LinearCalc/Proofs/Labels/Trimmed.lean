import LinearCalc.Proofs.Labels.Rounded
import LinearCalc.View.TickLabel

set_option autoImplicit false

/-! # Trimmed decimals

When zeros are taken from the end of a decimal, and the point if it comes to stand there, it stands
for the same number (`trim_value`). Nothing more of a rounded number can be left out then, unless it
is minus zero; so the characters of a label are a canonical decimal (`exists_tickChars`).
-/

namespace LinearCalc

open PlainDecimal

/-! ## Taking zeros from the end -/

namespace PlainDecimal

/-- The places without zeros at their end, and without the point if nothing is left of them. -/
def trimmed : Option (List Char) → Option (List Char)
  | none => none
  | some digits =>
    if Decimal.dropZeros digits = [] then none else some (Decimal.dropZeros digits)

theorem trimmed_of_nil {digits : List Char} (h : Decimal.dropZeros digits = []) :
    trimmed (some digits) = none := if_pos h

theorem trimmed_of_ne_nil {digits : List Char} (h : Decimal.dropZeros digits ≠ []) :
    trimmed (some digits) = some (Decimal.dropZeros digits) := if_neg h

/-- The decimal without zeros at the end of its places. -/
def trim (d : PlainDecimal) : PlainDecimal := { d with fraction := trimmed d.fraction }

theorem trim_fraction (d : PlainDecimal) : d.trim.fraction = trimmed d.fraction := rfl

end PlainDecimal

variable {d : PlainDecimal}

theorem exists_trim_places (d : PlainDecimal) :
    ∃ n, d.places = d.trim.places ++ List.replicate n '0' := by
  have htrim := trim_fraction d
  cases hd : d.fraction with
  | none =>
      rw [hd] at htrim
      exact ⟨0, by rw [places_of_none hd, places_of_none htrim]; rfl⟩
  | some digits =>
      obtain ⟨n, hn⟩ := exists_dropZeros digits
      refine ⟨n, ?_⟩
      rw [hd] at htrim
      -- if only zeros stand behind the point, it goes with them
      by_cases hnil : Decimal.dropZeros digits = []
      · rw [trimmed_of_nil hnil] at htrim
        rwa [hnil, ← places_of_none htrim, ← places_of_some hd] at hn
      · rw [trimmed_of_ne_nil hnil] at htrim
        rwa [← places_of_some htrim, ← places_of_some hd] at hn

theorem trim_value (d : PlainDecimal) : d.trim.value = d.value := by
  obtain ⟨n, hn⟩ := exists_trim_places d
  have hsigned : ∀ (negative : Bool) (m : ℕ),
      (Binary64.signed negative (10 ^ n * m) : ℚ) = 10 ^ n * Binary64.signed negative m := by
    intro negative m
    cases negative <;> simp [Binary64.signed]
  have hpow : (10 : ℚ) ^ n ≠ 0 := by positivity
  rw [value, value, hn, ← List.append_assoc, digitsValue_append_zeros, hsigned, List.length_append,
    List.length_replicate, pow_add, mul_comm (10 ^ d.trim.places.length) _,
    mul_div_mul_left _ _ hpow]
  rfl

theorem trim_proper (h : d.Proper) : d.trim.Proper := by
  obtain ⟨n, hn⟩ := exists_trim_places d
  refine ⟨h.whole_ne_nil, h.whole_digits, fun c hc => h.places_digits c ?_⟩
  rw [hn]
  exact List.mem_append_left _ hc

theorem trim_no_trailing (digits : List Char) (h : d.trim.fraction = some digits) :
    digits ≠ [] ∧ digits.getLast? ≠ some '0' := by
  rw [trim_fraction] at h
  cases hd : d.fraction with
  | none =>
      rw [hd] at h
      cases h
  | some places =>
      rw [hd] at h
      by_cases hnil : Decimal.dropZeros places = []
      · rw [trimmed_of_nil hnil] at h
        cases h
      · rw [trimmed_of_ne_nil hnil] at h
        cases h
        exact ⟨hnil, getLast?_dropZeros places⟩

theorem dropWhile_of_stop {p : Char → Bool} {l : List Char} (h : ∀ c ∈ l.head?, p c = false) :
    l.dropWhile p = l := by
  cases l with
  | nil => rfl
  | cons c l => rw [List.dropWhile_cons_of_neg (by simp [h c rfl])]

theorem dropWhile_append_of_stop {p : Char → Bool} (a : List Char) {b : List Char}
    (h : ∀ c ∈ b.head?, p c = false) : (a ++ b).dropWhile p = a.dropWhile p ++ b := by
  rw [List.dropWhile_append, dropWhile_of_stop h]
  split
  · rename_i hempty
    rw [List.isEmpty_iff.1 hempty, List.nil_append]
  · rfl

/-- The sign and the digits before the point. -/
def PlainDecimal.front (d : PlainDecimal) : List Char :=
  (if d.negative then ['-'] else []) ++ d.whole

theorem text_eq (d : PlainDecimal) : d.text = d.front ++ pointed d.fraction :=
  (List.append_assoc _ _ _).symm

theorem ne_point_of_isDigit {c : Char} (h : c.isDigit = true) : c ≠ '.' := by
  rintro rfl
  cases h

theorem ne_point_of_mem_front (h : d.Proper) {c : Char} (hc : c ∈ d.front) : c ≠ '.' := by
  rcases List.mem_append.1 hc with hc | hc
  · split at hc
    · rw [List.mem_singleton.1 hc]
      decide
    · cases hc
  · exact ne_point_of_isDigit (h.whole_digits c hc)

/-- **Zeros at the end of the characters are those at the end of the places.** -/
theorem trimFraction_text (h : d.Proper) : trimFraction d.text = d.trim.text := by
  have htext : d.trim.text = d.front ++ pointed (trimmed d.fraction) := text_eq d.trim
  have hfront : ∀ c ∈ d.front.reverse.head?, (c == '.') = false := fun c hc =>
    beq_eq_false_iff_ne.2 (ne_point_of_mem_front h (List.mem_reverse.1 (List.mem_of_mem_head? hc)))
  rw [htext, text_eq]
  cases hd : d.fraction with
  | none =>
      have hpoint : (d.front ++ pointed none).contains '.' = false := by
        rw [pointed, List.append_nil, List.contains_eq_mem]
        exact decide_eq_false (fun hc => ne_point_of_mem_front h hc rfl)
      rw [trimFraction, hpoint]
      rfl
  | some digits =>
      have hpoint : (d.front ++ pointed (some digits)).contains '.' = true := by
        simp [pointed]
      have hreverse : (d.front ++ pointed (some digits)).reverse
          = digits.reverse ++ '.' :: d.front.reverse := by
        simp [pointed]
      have hzeros : (digits.reverse ++ '.' :: d.front.reverse).dropWhile (· == '0')
          = digits.reverse.dropWhile (· == '0') ++ '.' :: d.front.reverse := by
        refine dropWhile_append_of_stop _ ?_
        rintro c ⟨⟩
        rfl
      rw [trimFraction, if_pos hpoint, hreverse, hzeros]
      cases hrest : digits.reverse.dropWhile (· == '0') with
      | nil =>
          -- the point stands at the end, and goes too
          have hnil : Decimal.dropZeros digits = [] := by rw [Decimal.dropZeros, hrest]; rfl
          rw [trimmed_of_nil hnil, List.nil_append, List.dropWhile_cons_of_pos rfl,
            dropWhile_of_stop hfront, List.reverse_reverse, pointed, List.append_nil]
      | cons c rest =>
          have hdrop : Decimal.dropZeros digits = (c :: rest).reverse := by
            rw [Decimal.dropZeros, hrest]
          have hmem : c ∈ digits.reverse.dropWhile (· == '0') := by
            rw [hrest]
            exact List.mem_cons_self
          have hdigit : c.isDigit = true := by
            refine h.places_digits c ?_
            rw [places_of_some hd]
            exact List.mem_reverse.1 ((List.dropWhile_sublist _).mem hmem)
          have hstop : ∀ c' ∈ (c :: rest ++ '.' :: d.front.reverse).head?, (c' == '.') = false := by
            rintro c' ⟨⟩
            exact beq_eq_false_iff_ne.2 (ne_point_of_isDigit hdigit)
          rw [dropWhile_of_stop hstop, trimmed_of_ne_nil (by simp [hdrop]), hdrop]
          simp [pointed]

/-! ## The characters of a label -/

namespace PlainDecimal

theorem value_eq_zero_iff (d : PlainDecimal) :
    d.value = 0 ↔ digitsValue (d.whole ++ d.places) = 0 := by
  have hpow : (10 : ℚ) ^ d.places.length ≠ 0 := by positivity
  rw [value, div_eq_zero_iff, or_iff_left hpow, Int.cast_eq_zero, ← Int.natAbs_eq_zero,
    natAbs_signed]

def unsigned (d : PlainDecimal) : PlainDecimal := { d with negative := false }

def zero (negative : Bool) : PlainDecimal := ⟨negative, ['0'], none⟩

theorem zero_proper (negative : Bool) : (zero negative).Proper := by
  refine ⟨List.cons_ne_nil _ _, allDigits_zeros 1, ?_⟩
  rintro c ⟨⟩

theorem zero_value (negative : Bool) : (zero negative).value = 0 :=
  (value_eq_zero_iff _).2 rfl

theorem zero_canonical : (zero false).Canonical where
  toProper := zero_proper false
  no_leading := by
    rintro rest ⟨⟩
    rfl
  no_trailing := by rintro digits ⟨⟩
  no_sign := by rintro ⟨⟩

end PlainDecimal

/-- What is left of a decimal in which only the sign may be needless is canonical, unless it is
minus zero. -/
theorem canonical_or_minus_zero (hproper : d.Proper)
    (hleading : ∀ rest, d.whole = '0' :: rest → rest = [])
    (htrailing : ∀ digits, d.fraction = some digits → digits ≠ [] ∧ digits.getLast? ≠ some '0') :
    d.Canonical ∨ d = zero true := by
  by_cases hsign : d.negative = true → d.value ≠ 0
  · exact .inl ⟨hproper, hleading, htrailing, hsign⟩
  · right
    rw [Classical.not_imp, not_not] at hsign
    -- without its sign it is canonical and has the value zero, and there is one such decimal
    have hunsigned : d.unsigned.Canonical :=
      ⟨⟨hproper.whole_ne_nil, hproper.whole_digits, hproper.places_digits⟩, hleading, htrailing,
        by rintro ⟨⟩⟩
    have hvalue : d.unsigned.value = 0 :=
      (value_eq_zero_iff _).2 ((value_eq_zero_iff d).1 hsign.2)
    have hzero := hunsigned.eq_of_value_eq zero_canonical (hvalue.trans (zero_value false).symm)
    obtain ⟨negative, whole, fraction⟩ := d
    cases hsign.1
    cases hzero
    rfl

/-- **The characters of a label are a canonical decimal**, the number rounded to so many places. -/
theorem exists_tickChars {value : Float} {q : ℚ} (h : exactValue? (clampToZero value) = some q)
    (places : ℕ) :
    ∃ (d : PlainDecimal) (n : ℤ), tickChars places value = d.text ∧ d.Canonical ∧
      NearestEven (q * 10 ^ places) n ∧ d.value = n / 10 ^ places := by
  obtain ⟨negative, n, htext, hnearest⟩ := exists_fixedChars h places
  have hproper := placed_proper negative places n
  have hvalue : (placed negative places n).trim.value = Binary64.signed negative n / 10 ^ places :=
    (trim_value _).trans (placed_value negative places n)
  have hchars : tickChars places value = if (placed negative places n).trim.text = (zero true).text
      then (zero false).text else (placed negative places n).trim.text := by
    rw [tickChars, htext, trimFraction_text hproper]
    rfl
  -- the text of minus zero is the only one that is written another way
  rcases canonical_or_minus_zero (trim_proper hproper) (placed_no_leading negative places n)
    trim_no_trailing with hcanonical | hzero
  · refine ⟨_, _, ?_, hcanonical, hnearest, hvalue⟩
    rw [hchars, if_neg]
    intro htext
    have hequal := hcanonical.toProper.eq_of_text_eq (zero_proper true) htext
    exact hcanonical.no_sign (congrArg PlainDecimal.negative hequal) (hequal ▸ zero_value true)
  · refine ⟨zero false, _, ?_, zero_canonical, hnearest, ?_⟩
    · rw [hchars, if_pos (congrArg text hzero)]
    · rw [← hvalue, hzero, zero_value, zero_value]

end LinearCalc
