import LinearCalc.Proofs.Floats.Order
import LinearCalc.Proofs.Labels.Trimmed
import Mathlib.Data.Nat.Log
import Mathlib.Data.Rat.Floor

set_option autoImplicit false

/-! # Tick labels are short and distinct

The label of every finite number is the shortest plain decimal for it, rounded to the places that
the distance of the ticks asks for. These are one more than the first digit of the distance needs.
At distances that are powers of two no two ticks have one label, as long as six places are enough
(`tickLabel_shortest_distinct`).

The places come from a table that stands for a logarithm, and a logarithm takes what is very close
to a power of ten for that power (`NearPower`). No power of two is so close to one
(`not_nearPower_zpow`).
-/

namespace LinearCalc

open PlainDecimal

variable {spacing value : Float} {q r : ℚ} {j : ℤ}

/-! ## Places -/

/-- The least exponent of a power of ten that is not less than the inverse of a distance. -/
def leastExponent (r : ℚ) : ℕ := Nat.clog 10 ⌈r⁻¹⌉₊

theorem leastExponent_le_iff (hr : 0 < r) (e : ℕ) : leastExponent r ≤ e ↔ 1 ≤ r * 10 ^ e := by
  have hcast : ((10 ^ e : ℕ) : ℚ) = 10 ^ e := by norm_num
  rw [leastExponent, Nat.clog_le_iff_le_pow (by decide), Nat.ceil_le, hcast,
    inv_le_iff_one_le_mul₀ hr, mul_comm]

/-- The places for ticks at a distance: none for a distance of one or more, otherwise one more than
the exponent of the power of ten, but not more than six. -/
def decimalPlaces (r : ℚ) : ℕ := if 1 ≤ r then 0 else min maxPlaces (leastExponent r + 1)

/-- The distance is less than one tenth, one hundredth, and so on, but so close to it that it may be
taken for it. -/
def NearPower (r : ℚ) : Prop :=
  ∃ e, 1 ≤ e ∧ e + 2 ≤ maxPlaces ∧ 1 - 1 / 10 ^ 14 ≤ r * 10 ^ e ∧ r * 10 ^ e < 1

/-- Every distance in the table is close to the power of ten that it stands for. -/
theorem placesTable_values : ∀ entry ∈ placesTable, ∃ t, exactValue? entry.1 = some t ∧
    2 ≤ entry.2 ∧ entry.2 < maxPlaces ∧ 1 - 1 / 10 ^ 14 ≤ t * 10 ^ (entry.2 - 1) ∧
    t * 10 ^ (entry.2 - 1) < 1 := by
  intro entry hentry
  simp only [placesTable, List.mem_cons, List.not_mem_nil, or_false] at hentry
  rcases hentry with rfl | rfl | rfl | rfl
  · exact ⟨(7205759403792792 : ℤ) * 2 ^ (-56 : ℤ), rfl, by decide, by decide, by norm_num,
      by norm_num⟩
  · exact ⟨(5764607523034232 : ℤ) * 2 ^ (-59 : ℤ), rfl, by decide, by decide, by norm_num,
      by norm_num⟩
  · exact ⟨(4611686018427386 : ℤ) * 2 ^ (-62 : ℤ), rfl, by decide, by decide, by norm_num,
      by norm_num⟩
  · exact ⟨(7378697629483813 : ℤ) * 2 ^ (-66 : ℤ), rfl, by decide, by decide, by norm_num,
      by norm_num⟩

/-- **Which entry of the table is small enough.** -/
theorem entry_le_iff {entry : Float × ℕ} (hentry : entry ∈ placesTable)
    (hspacing : exactValue? spacing = some r) (hr : 0 < r) (hnear : ¬ NearPower r) :
    entry.1 ≤ spacing ↔ leastExponent r + 1 ≤ entry.2 := by
  obtain ⟨t, ht, hleast, hmost, hlow, hhigh⟩ := placesTable_values entry hentry
  have hpow : (0 : ℚ) < 10 ^ (entry.2 - 1) := by positivity
  have hpos : 0 < t := by
    have hproduct : 0 < t * 10 ^ (entry.2 - 1) := lt_of_lt_of_le (by norm_num) hlow
    exact (pos_iff_pos_of_mul_pos hproduct).2 hpow
  have hexponent := leastExponent_le_iff hr (entry.2 - 1)
  rw [value_le_iff ht hspacing hpos hr]
  constructor
  · intro hle
    have hproduct := mul_le_mul_of_nonneg_right hle hpow.le
    -- the entries are floats near the powers of ten; a distance between an entry and its power is
    -- what `NearPower` excludes
    have hone : 1 ≤ r * 10 ^ (entry.2 - 1) := by
      by_contra hlt
      exact hnear ⟨entry.2 - 1, by omega, by omega, hlow.trans hproduct, not_le.1 hlt⟩
    have hle' := hexponent.2 hone
    omega
  · intro hle
    have hone := hexponent.1 (by omega)
    exact (lt_of_mul_lt_mul_right (hhigh.trans_le hone) hpow.le).le

/-- The first entry with so many places or more. -/
theorem find_placesTable {m : ℕ} (h : 2 ≤ m) :
    (match placesTable.find? (fun entry => decide (m ≤ entry.2)) with
      | some entry => Except.ok entry.2
      | none => (Except.ok maxPlaces : Except TickError ℕ)) = .ok (min maxPlaces m) := by
  -- the table has an entry for two to five places, and what is below all entries gets six
  have hcases : m = 2 ∨ m = 3 ∨ m = 4 ∨ m = 5 ∨ 6 ≤ m := by omega
  rcases hcases with rfl | rfl | rfl | rfl | h
  · rfl
  · rfl
  · rfl
  · rfl
  · have hnone : placesTable.find? (fun entry => decide (m ≤ entry.2)) = none := by
      rw [List.find?_eq_none]
      intro entry hentry hle
      obtain ⟨-, -, -, hmost, -⟩ := placesTable_values entry hentry
      have hle' := of_decide_eq_true hle
      unfold maxPlaces at hmost
      omega
    rw [hnone]
    exact congrArg Except.ok (Nat.min_eq_left h).symm

/-- **The places for a distance**, unless it is too close to a power of ten. -/
theorem tickPlaces_of_value (h : exactValue? spacing = some r) (hr : 0 < r)
    (hnear : ¬ NearPower r) : tickPlaces spacing = .ok (decimalPlaces r) := by
  obtain ⟨n, c, hs, -⟩ := exists_significand_of_value h hr
  have hone : exactValue? 1 = some 1 := by
    rw [exactValue?, significand_one.toRat?_eq, scaled_twoPow, zpow_zero]
  have hwhole : 1 ≤ spacing ↔ 1 ≤ r := value_le_iff hone h one_pos hr
  unfold tickPlaces decimalPlaces
  by_cases hle : 1 ≤ r
  · rw [if_pos (hwhole.2 hle), if_pos hle]
  -- the search compares floats: with each entry it asks for an exponent instead
  · have hfind : placesTable.find? (fun entry => decide (entry.1 ≤ spacing))
        = placesTable.find? (fun entry => decide (leastExponent r + 1 ≤ entry.2)) := by
      rw [← List.head?_filter, ← List.head?_filter]
      congr 1
      exact List.filter_congr
        (fun entry hentry => decide_eq_decide.2 (entry_le_iff hentry h hr hnear))
    have hexponent : ¬ leastExponent r ≤ 0 := by
      rw [leastExponent_le_iff hr, pow_zero, mul_one]
      exact hle
    rw [if_neg (fun hfloat => hle (hwhole.1 hfloat)), if_neg (Bool.eq_false_iff.1 hs.not_isNaN),
      if_neg hs.not_le_zero, if_neg hle, hfind]
    exact find_placesTable (by omega)

/-- **A power of two is not too close to a power of ten.** -/
theorem not_nearPower_zpow (j : ℤ) : ¬ NearPower (2 ^ j) := by
  rintro ⟨e, -, he, hlow, hhigh⟩
  have hten : (1 : ℚ) ≤ 10 ^ e := one_le_pow₀ (by norm_num)
  by_cases hj : 0 ≤ j
  · have htwo : (1 : ℚ) ≤ 2 ^ j := one_le_zpow₀ one_le_two hj
    exact absurd (one_le_mul_of_one_le_of_one_le htwo hten) (not_le.2 hhigh)
  · obtain ⟨i, rfl⟩ : ∃ i : ℕ, j = -i := ⟨j.natAbs, by omega⟩
    have hpow : (0 : ℚ) < 2 ^ i := by positivity
    rw [zpow_neg, zpow_natCast, ← div_eq_inv_mul, le_div_iff₀ hpow] at hlow
    rw [zpow_neg, zpow_natCast, ← div_eq_inv_mul, div_lt_one hpow] at hhigh
    -- as whole numbers they differ by one at least
    have hgap : (10 ^ e : ℚ) + 1 ≤ 2 ^ i := by
      have hlt : 10 ^ e < 2 ^ i := by exact_mod_cast hhigh
      exact_mod_cast Nat.succ_le_of_lt hlt
    have hmost : (10 : ℚ) ^ e ≤ 10 ^ 4 := pow_le_pow_right₀ (by norm_num) (by
      unfold maxPlaces at he
      omega)
    norm_num at hlow hmost
    linarith

theorem tickPlaces_of_power (h : exactValue? spacing = some (2 ^ j)) :
    tickPlaces spacing = .ok (decimalPlaces (2 ^ j)) :=
  tickPlaces_of_value h (by positivity) (not_nearPower_zpow j)

/-- There are places for every positive distance. -/
theorem exists_tickPlaces (h : 0 < spacing) :
    ∃ places, tickPlaces spacing = .ok places ∧ places ≤ maxPlaces := by
  unfold tickPlaces
  by_cases hwhole : 1 ≤ spacing
  · exact ⟨0, if_pos hwhole, Nat.zero_le _⟩
  · rcases significand_or_infinity h with ⟨n, c, hs⟩ | hinfinite
    · rw [if_neg hwhole, if_neg (Bool.eq_false_iff.1 hs.not_isNaN), if_neg hs.not_le_zero]
      split
      · rename_i entry hentry
        obtain ⟨-, -, -, hmost, -⟩ := placesTable_values entry (List.mem_of_find?_eq_some hentry)
        exact ⟨_, rfl, hmost.le⟩
      · exact ⟨_, rfl, Nat.le_refl _⟩
    · -- infinity is large enough for whole numbers
      refine absurd ?_ hwhole
      obtain ⟨m, hm, hone, -⟩ := significand_one.unpacked
      rw [float_le_iff, hinfinite, hone]
      rfl

/-! ## Numbers close to zero -/

/-- The bits of the number below which numbers are taken for zero. -/
def nearZeroBits : ℕ := 7737125245533627

theorem significand_nearZero : Significand nearZero (-34) nearZeroBits :=
  ⟨⟨nearZeroBits, by decide, rfl, rfl⟩, by decide, by decide, by decide⟩

/-- **The value of a number that may be taken for zero.** -/
theorem exactValue?_clampToZero (h : exactValue? value = some q) :
    exactValue? (clampToZero value) = some (if |q| < scaled nearZeroBits (-34) then 0 else q) := by
  have hzero : exactValue? 0 = some 0 := isExactly_zero.value_eq
  have hpos : 0 < scaled nearZeroBits (-34) := scaled_pos significand_nearZero.leading
  have hnear : q ≠ 0 → (value.abs < nearZero ↔ |q| < scaled nearZeroBits (-34)) := fun hq =>
    value_lt_iff (exactValue?_abs h) significand_nearZero.toRat?_eq (abs_pos.2 hq) hpos
  unfold clampToZero
  by_cases hq : q = 0
  · -- whether it is taken for zero or not, it is zero
    subst hq
    rw [ite_self]
    split
    · exact hzero
    · exact h
  · by_cases hlt : |q| < scaled nearZeroBits (-34)
    · rw [if_pos hlt, if_pos ((hnear hq).2 hlt)]
      exact hzero
    · rw [if_neg hlt, if_neg (fun hclose => hlt ((hnear hq).1 hclose))]
      exact h

/-- A multiple of a power of two that is large enough is not taken for zero, unless it is zero. -/
theorem exactValue?_clampToZero_mul {k : ℤ} (h : exactValue? value = some ((k : ℚ) * 2 ^ j))
    (hj : -19 ≤ j) : exactValue? (clampToZero value) = some ((k : ℚ) * 2 ^ j) := by
  rw [exactValue?_clampToZero h]
  by_cases hk : k = 0
  · rw [hk, Int.cast_zero, zero_mul, ite_self]
  · have hone : (1 : ℚ) ≤ |(k : ℚ)| := by exact_mod_cast Int.one_le_abs hk
    have hpow : (0 : ℚ) < 2 ^ j := by positivity
    -- the least multiple but zero is the unit itself, which is above the bound
    have hlarge : scaled nearZeroBits (-34) ≤ |(k : ℚ) * 2 ^ j| := by
      have hbits := scaled_lt_of_lt significand_nearZero.lt (Nat.le_refl (twoPow 52))
        (show (-34 : ℤ) < -19 by decide)
      rw [scaled_twoPow] at hbits
      calc scaled nearZeroBits (-34) ≤ 2 ^ (-19 : ℤ) := hbits.le
        _ ≤ 2 ^ j := zpow_le_zpow_right₀ one_le_two hj
        _ ≤ |(k : ℚ)| * 2 ^ j := le_mul_of_one_le_left hpow.le hone
        _ = |(k : ℚ) * 2 ^ j| := by rw [abs_mul, abs_of_pos hpow]
    rw [if_neg (not_lt.2 hlarge)]

/-! ## Distinct labels -/

/-- **The label of a number is the canonical decimal of the rounded number.** -/
theorem exists_tickLabel {places : ℕ} (hplaces : tickPlaces spacing = .ok places)
    (h : exactValue? (clampToZero value) = some q) :
    ∃ (d : PlainDecimal) (n : ℤ), tickLabel value spacing = .ok (String.ofList d.text) ∧
      d.Canonical ∧ NearestEven (q * 10 ^ places) n ∧ d.value = n / 10 ^ places := by
  obtain ⟨d, n, htext, hd⟩ := exists_tickChars h places
  refine ⟨d, n, ?_, hd⟩
  rw [tickLabel, hplaces, ← htext]
  rfl

/-- Numbers more than one apart are not rounded to one integer. -/
theorem NearestEven.abs_sub_le {a b : ℚ} {n : ℤ} (ha : NearestEven a n) (hb : NearestEven b n) :
    |a - b| ≤ 1 := by
  have hsplit : a - b = (a - n) - (b - n) := by ring
  calc |a - b| = |(a - n) - (b - n)| := by rw [hsplit]
    _ ≤ |a - n| + |b - n| := abs_sub _ _
    _ ≤ 1 / 2 + 1 / 2 := add_le_add ha.near hb.near
    _ = 1 := by norm_num

/-- An integer is rounded to itself. -/
theorem NearestEven.eq_of_int {z n : ℤ} (h : NearestEven z n) : n = z := by
  have hnear : |((z - n : ℤ) : ℚ)| < 1 := by
    rw [Int.cast_sub]
    exact lt_of_le_of_lt h.near (by norm_num)
  have hzero : z - n = 0 := Int.abs_lt_one_iff.1 (by exact_mod_cast hnear)
  omega

/-- The places for a power of two tell its multiples apart. -/
theorem one_lt_mul_decimalPlaces (hneg : j < 0) (hj : -19 ≤ j) :
    1 < (2 : ℚ) ^ j * 10 ^ decimalPlaces (2 ^ j) := by
  have hpow : (0 : ℚ) < 2 ^ j := by positivity
  have hlt : (2 : ℚ) ^ j < 1 := zpow_lt_one_of_neg₀ one_lt_two hneg
  rw [decimalPlaces, if_neg (not_le.2 hlt)]
  rcases Nat.le_total maxPlaces (leastExponent (2 ^ j) + 1) with hmost | hfew
  · rw [Nat.min_eq_left hmost]
    calc (1 : ℚ) < 2 ^ (-19 : ℤ) * 10 ^ maxPlaces := by norm_num [maxPlaces]
      _ ≤ 2 ^ j * 10 ^ maxPlaces :=
        mul_le_mul_of_nonneg_right (zpow_le_zpow_right₀ one_le_two hj) (by positivity)
  · rw [Nat.min_eq_right hfew]
    have hone := (leastExponent_le_iff hpow _).1 (Nat.le_refl (leastExponent (2 ^ j)))
    calc (1 : ℚ) < 1 * 10 := by norm_num
      _ ≤ 2 ^ j * 10 ^ leastExponent (2 ^ j) * 10 := mul_le_mul_of_nonneg_right hone (by norm_num)
      _ = 2 ^ j * 10 ^ (leastExponent (2 ^ j) + 1) := by rw [pow_succ, mul_assoc]

/-- **Different multiples are rounded differently.** -/
theorem multiples_eq_of_nearestEven {k m n : ℤ} (hj : -19 ≤ j)
    (hk : NearestEven (k * 2 ^ j * 10 ^ decimalPlaces (2 ^ j)) n)
    (hm : NearestEven (m * 2 ^ j * 10 ^ decimalPlaces (2 ^ j)) n) : k = m := by
  -- a distance of at least one needs no places and the multiples are integers; below one, the unit
  -- after scaling is more than one, which is more than rounding can close
  by_cases hwhole : 0 ≤ j
  · obtain ⟨i, rfl⟩ : ∃ i : ℕ, j = i := ⟨j.toNat, by omega⟩
    have hplaces : decimalPlaces (2 ^ (i : ℤ)) = 0 := if_pos (one_le_zpow₀ one_le_two hwhole)
    have hint : ∀ z : ℤ, (z : ℚ) * 2 ^ (i : ℤ) * 10 ^ decimalPlaces (2 ^ (i : ℤ))
        = ((z * 2 ^ i : ℤ) : ℚ) := by
      intro z
      rw [hplaces, zpow_natCast, pow_zero, mul_one]
      push_cast
      rfl
    rw [hint] at hk hm
    have hequal := hk.eq_of_int.symm.trans hm.eq_of_int
    exact mul_right_cancel₀ (pow_ne_zero i two_ne_zero) hequal
  · have hunit := one_lt_mul_decimalPlaces (not_le.1 hwhole) hj
    have hpos : (0 : ℚ) < 2 ^ j * 10 ^ decimalPlaces (2 ^ j) := one_pos.trans hunit
    by_contra hne
    have hgap := hk.abs_sub_le hm
    have hone : (1 : ℚ) ≤ |((k - m : ℤ) : ℚ)| := by
      exact_mod_cast Int.one_le_abs (sub_ne_zero.2 hne)
    have hfactor : (k : ℚ) * 2 ^ j * 10 ^ decimalPlaces (2 ^ j)
          - m * 2 ^ j * 10 ^ decimalPlaces (2 ^ j)
        = ((k - m : ℤ) : ℚ) * (2 ^ j * 10 ^ decimalPlaces (2 ^ j)) := by
      push_cast
      ring
    rw [hfactor, abs_mul, abs_of_pos hpos] at hgap
    exact absurd (hunit.trans_le (le_mul_of_one_le_left hpos.le hone)) (not_lt.2 hgap)

/-- **Labels are short, and they tell ticks apart.** Every finite number has a label, for ticks at
any positive distance: the canonical decimal, shorter than all other plain decimals of its value, of
the number rounded to so many places with ties to even, after numbers close to zero have become
zero. The places are one more than the exponent of the least power of ten that is as large as the
inverse of the distance, but no more than six, and none if the distance is not below one; only a
distance just below a power of ten may have other places, which no power of two is. If a power of
two is not less than `2^(-19)`, different multiples of it have different labels. -/
theorem tickLabel_shortest_distinct :
    (∀ value spacing : Float, value.isFinite = true → 0 < spacing →
      ∃ (places : ℕ) (q : ℚ) (n : ℤ) (d : PlainDecimal),
        tickPlaces spacing = .ok places ∧ places ≤ maxPlaces ∧
        exactValue? (clampToZero value) = some q ∧ NearestEven (q * 10 ^ places) n ∧
        tickLabel value spacing = .ok (String.ofList d.text) ∧ d.Canonical ∧
        d.value = n / 10 ^ places ∧
        ∀ e : PlainDecimal, e.Proper → e.value = d.value → e ≠ d →
          d.text.length < e.text.length) ∧
    (∀ (spacing : Float) (r : ℚ), exactValue? spacing = some r → 0 < r → ¬ NearPower r →
      tickPlaces spacing = .ok (decimalPlaces r)) ∧
    (∀ (spacing : Float) (j : ℤ), exactValue? spacing = some (2 ^ j) →
      tickPlaces spacing = .ok (decimalPlaces (2 ^ j))) ∧
    (∀ (spacing x y : Float) (j k m : ℤ), exactValue? spacing = some (2 ^ j) → -19 ≤ j →
      exactValue? x = some ((k : ℚ) * 2 ^ j) → exactValue? y = some ((m : ℚ) * 2 ^ j) → k ≠ m →
      tickLabel x spacing ≠ tickLabel y spacing) := by
  refine ⟨?_, fun spacing r h hr hnear => tickPlaces_of_value h hr hnear,
    fun spacing j h => tickPlaces_of_power h, ?_⟩
  · intro value spacing hfinite hpos
    obtain ⟨places, hplaces, hmost⟩ := exists_tickPlaces hpos
    obtain ⟨q, hq⟩ := exists_exactValue? hfinite
    have hclamped := exactValue?_clampToZero hq
    obtain ⟨d, n, hlabel, hcanonical, hnearest, hvalue⟩ := exists_tickLabel hplaces hclamped
    exact ⟨places, _, n, d, hplaces, hmost, hclamped, hnearest, hlabel, hcanonical, hvalue,
      fun e he hequal hne => hcanonical.length_lt he hequal hne⟩
  · intro spacing x y j k m hspacing hj hx hy hne heq
    have hplaces := tickPlaces_of_power hspacing
    obtain ⟨d, n, hlabel, hd, hnearest, hvalue⟩ :=
      exists_tickLabel hplaces (exactValue?_clampToZero_mul hx hj)
    obtain ⟨e, n', hlabel', he, hnearest', hvalue'⟩ :=
      exists_tickLabel hplaces (exactValue?_clampToZero_mul hy hj)
    -- one label would be one text, so one decimal, and so one rounded integer
    have htext : d.text = e.text := by
      rw [hlabel, hlabel', Except.ok.injEq] at heq
      simpa only [String.toList_ofList] using congrArg String.toList heq
    have hsame : n = n' := by
      have hpow : (10 : ℚ) ^ decimalPlaces (2 ^ j) ≠ 0 := by positivity
      rw [hd.toProper.eq_of_text_eq he.toProper htext, hvalue', div_left_inj' hpow] at hvalue
      exact_mod_cast hvalue.symm
    rw [← hsame] at hnearest'
    exact hne (multiples_eq_of_nearestEven hj hnearest hnearest')

theorem significand_quarter : Significand 0.25 (-2) (twoPow 52) :=
  ⟨⟨twoPow 52, by decide, rfl, rfl⟩, by decide, by decide, by decide⟩

theorem significand_five_quarters : Significand 1.25 0 (5 * twoPow 50) :=
  ⟨⟨5 * twoPow 50, by decide, rfl, rfl⟩, by decide, by decide, by decide⟩

theorem significand_six_quarters : Significand 1.5 0 (6 * twoPow 50) :=
  ⟨⟨6 * twoPow 50, by decide, rfl, rfl⟩, by decide, by decide, by decide⟩

theorem tickLabel_shortest_distinct_quarters :
    ((1.25 : Float).isFinite = true ∧ (0 : Float) < 0.25 ∧
      exactValue? 0.25 = some (2 ^ (-2 : ℤ)) ∧ (0 : ℚ) < 2 ^ (-2 : ℤ) ∧
      ¬ NearPower (2 ^ (-2 : ℤ)) ∧
      exactValue? 1.25 = some (((5 : ℤ) : ℚ) * 2 ^ (-2 : ℤ)) ∧
      exactValue? 1.5 = some (((6 : ℤ) : ℚ) * 2 ^ (-2 : ℤ))) ∧
    (∃ (n : ℤ) (d : PlainDecimal), tickLabel 1.25 0.25 = .ok (String.ofList d.text) ∧
      d.Canonical ∧ d.value = n / 10 ^ decimalPlaces (2 ^ (-2 : ℤ))) ∧
    tickLabel 1.25 0.25 ≠ tickLabel 1.5 0.25 := by
  have hfinite : (1.25 : Float).isFinite = true := rfl
  have hpos : (0 : Float) < 0.25 := by decide
  have hquarter : (0 : ℚ) < 2 ^ (-2 : ℤ) := by positivity
  have hnear := not_nearPower_zpow (-2)
  have hspacing : exactValue? 0.25 = some (2 ^ (-2 : ℤ)) := by
    rw [exactValue?, significand_quarter.toRat?_eq, scaled_twoPow]
  have hfive : exactValue? 1.25 = some (((5 : ℤ) : ℚ) * 2 ^ (-2 : ℤ)) := by
    rw [exactValue?, significand_five_quarters.toRat?_eq]
    norm_num [scaled, twoPow_cast, zpow_neg]
  have hsix : exactValue? 1.5 = some (((6 : ℤ) : ℚ) * 2 ^ (-2 : ℤ)) := by
    rw [exactValue?, significand_six_quarters.toRat?_eq]
    norm_num [scaled, twoPow_cast, zpow_neg]
  -- a quarter is a power of two, so both the places and the difference of the labels are at hand
  obtain ⟨hlabels, hplaces, -, hdistinct⟩ := tickLabel_shortest_distinct
  obtain ⟨places, q, n, d, hok, -, -, -, hlabel, hcanonical, hvalue, -⟩ :=
    hlabels 1.25 0.25 hfinite hpos
  rw [hplaces 0.25 _ hspacing hquarter hnear, Except.ok.injEq] at hok
  rw [← hok] at hvalue
  exact ⟨⟨hfinite, hpos, hspacing, hquarter, hnear, hfive, hsix⟩,
    ⟨n, d, hlabel, hcanonical, hvalue⟩,
    hdistinct 0.25 1.25 1.5 (-2) 5 6 hspacing (by decide) hfive hsix (by decide)⟩

example : tickLabel (-0.0001) 0.5 = .ok "0" := by decide +kernel

end LinearCalc
