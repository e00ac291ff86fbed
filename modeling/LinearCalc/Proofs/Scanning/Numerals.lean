import LinearCalc.Number.Numeral
import LinearCalc.Proofs.Scanning.LongestWords

set_option autoImplicit false

/-! # Numbers of a text are numerals

Whatever the scanner takes for a number is read as a decimal (`LongestWord.exists_decimal`). The
reader of decimals knows much more than the scanner does: blanks, underscores, signs, exponents,
digits of other scripts. Digits and points go through all of this unchanged.
-/

namespace LinearCalc

/-- A digit or a point. -/
def IsPlain (c : Char) : Prop := c.isDigit = true ∨ c = '.'

variable {chars : List Char}

theorem IsPlain.toNat_bounds {c : Char} (h : IsPlain c) : 46 ≤ c.toNat ∧ c.toNat ≤ 57 := by
  rcases h with h | rfl
  · rw [Char.isDigit, Bool.and_eq_true, decide_eq_true_eq, decide_eq_true_eq] at h
    have hlow : 48 ≤ c.toNat := h.1
    have hhigh : c.toNat ≤ 57 := h.2
    omega
  · decide

theorem IsPlain.not_blank {c : Char} (h : IsPlain c) : isNumeralBlank c = false := by
  have hbounds := h.toNat_bounds
  simp only [isNumeralBlank, isWhiteSpace, Bool.or_eq_false_iff, Bool.and_eq_false_iff,
    decide_eq_false_iff_not, List.contains_eq_mem, List.mem_cons, List.not_mem_nil, or_false]
  omega

theorem IsPlain.plainDigit_eq {c : Char} (h : IsPlain c) : plainDigit c = c := by
  have hbounds := h.toNat_bounds
  rw [plainDigit, if_pos (by omega)]

/-- Characters of which none is in a class are not trimmed. -/
theorem trimChars_eq_self {p : Char → Bool} (h : ∀ c ∈ chars, p c = false) :
    trimChars p chars = chars := by
  have hdrop : ∀ l : List Char, (∀ c ∈ l, p c = false) → l.dropWhile p = l := by
    intro l hl
    cases l with
    | nil => rfl
    | cons c l => rw [List.dropWhile_cons, if_neg (by simp [hl c])]
  rw [trimChars, hdrop chars h, hdrop _ (by simpa using h), List.reverse_reverse]

theorem dropUnderscores_eq_self (h : ∀ c ∈ chars, c ≠ '_') :
    dropUnderscores chars = some chars := by
  fun_induction dropUnderscores chars with
  | case1 => rfl
  | case2 => exact absurd rfl (h '_' (by simp))
  | case3 => exact absurd rfl (h '_' (by simp))
  | case4 => exact absurd rfl (h '_' (by simp))
  | case5 => exact absurd rfl (h '_' (by simp))
  | case6 c more _ _ _ ih =>
      rw [ih (fun d hd => h d (by simp [hd]))]
      rfl

/-- Digits and points are the characters of a numeral as they are. -/
theorem numeralChars?_plain (h : ∀ c ∈ chars, IsPlain c) :
    numeralChars? (String.ofList chars) = some chars := by
  have hmap : chars.map plainDigit = chars := by
    rw [List.map_congr_left (g := id) (fun c hc => (h c hc).plainDigit_eq), List.map_id]
  rw [numeralChars?, String.toList_ofList, trimChars_eq_self (fun c hc => (h c hc).not_blank), hmap]
  refine dropUnderscores_eq_self ?_
  rintro c hc rfl
  exact absurd (h '_' hc) (by simp [IsPlain])

/-- Digits with at most one point among them are read. -/
theorem exists_readDigits? {next : Option Char} (h : LongestWord "Number" chars next) :
    ∃ v, readDigits? chars = some v := by
  have hend : NoDigit ([] : List Char).head? := by simp [NoDigit]
  -- the shapes of a number are all that a decimal needs: digits, and at most one point
  cases h with
  | single known point => simp [singleKinds] at known
  | whole nonempty digit noDigit noPoint =>
      obtain ⟨htake, hdrop⟩ := takeWhile_digits digit hend
      rw [List.append_nil] at htake hdrop
      refine ⟨scaledValue (digitsValue (chars ++ [])) (0 - ([] : List Char).length), ?_⟩
      simp only [readDigits?, htake, hdrop]
      rw [if_neg (by simpa using nonempty)]
      rfl
  | @decimal whole places next nonempty digit digit' noDigit =>
      have hpoint : NoDigit ('.' :: places).head? := by
        rintro c ⟨⟩
        decide
      obtain ⟨htake, hdrop⟩ := takeWhile_digits digit hpoint
      obtain ⟨htake', hdrop'⟩ := takeWhile_digits digit' hend
      rw [List.append_nil] at htake' hdrop'
      have hsome : (whole ++ places).isEmpty = false := by
        rw [List.isEmpty_eq_false_iff]
        intro hnil
        obtain ⟨hwhole, hplaces⟩ := List.append_eq_nil_iff.1 hnil
        exact nonempty.elim (fun h => h hwhole) (fun h => h hplaces)
      refine ⟨scaledValue (digitsValue (whole ++ places)) (0 - places.length), ?_⟩
      simp only [readDigits?, htake, hdrop, htake', hdrop']
      rw [if_neg (by rw [hsome]; decide)]
      rfl

/-- A number consists of digits and points. -/
theorem LongestWord.isPlain {next : Option Char} (h : LongestWord "Number" chars next) :
    ∀ c ∈ chars, IsPlain c := by
  intro c hc
  cases h with
  | single known point => simp [singleKinds] at known
  | whole nonempty digit noDigit noPoint => exact .inl (digit c hc)
  | decimal nonempty digit digit' noDigit =>
      rcases List.mem_append.1 hc with hc | hc
      · exact .inl (digit c hc)
      · rcases List.mem_cons.1 hc with rfl | hc
        · exact .inr rfl
        · exact .inl (digit' c hc)

/-- **A number of a text is read as a decimal.** -/
theorem LongestWord.exists_decimal {next : Option Char} (h : LongestWord "Number" chars next) :
    ∃ v, readDecimal? (String.ofList chars) = some v := by
  have hplain := h.isPlain
  -- a number of a text has no sign of its own, since a sign is a word of its own
  have hsign : splitSign chars = (false, chars) := by
    unfold splitSign
    split
    · exact absurd (hplain '-' (by simp)) (by simp [IsPlain])
    · exact absurd (hplain '+' (by simp)) (by simp [IsPlain])
    · rfl
  obtain ⟨v, hv⟩ := exists_readDigits? h
  obtain ⟨w, hw⟩ : ∃ w, (readWord? chars).or (readDigits? chars) = some w := by
    rw [hv]
    cases readWord? chars with
    | none => exact ⟨v, rfl⟩
    | some w => exact ⟨w, rfl⟩
  refine ⟨w, ?_⟩
  simp only [readDecimal?, numeralChars?_plain hplain, Option.bind_eq_bind, Option.bind_some, hsign,
    hw]
  rfl

end LinearCalc
