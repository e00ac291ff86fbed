import LinearCalc.Number.Decimal
import LinearCalc.Number.Numeral
import Mathlib.Tactic.Positivity

set_option autoImplicit false

/-! # Rows of digits

A row of digits stands for a number (`digitsValue`), and every number has a row without needless
zeros (`natDigits`). Zeros in front of a row count for nothing, and those behind it are a power of
ten.
-/

namespace LinearCalc

def AllDigits (digits : List Char) : Prop := ∀ c ∈ digits, c.isDigit = true

variable {a b : List Char}

theorem AllDigits.append (ha : AllDigits a) (hb : AllDigits b) : AllDigits (a ++ b) :=
  fun c hc => (List.mem_append.1 hc).elim (ha c) (hb c)

theorem allDigits_zeros (n : ℕ) : AllDigits (List.replicate n '0') := by
  intro c hc
  rw [List.eq_of_mem_replicate hc]
  rfl

theorem digitsValue_append (a b : List Char) :
    digitsValue (a ++ b) = 10 ^ b.length * digitsValue a + digitsValue b := by
  have hvalue : ∀ l, digitsValue l = Nat.ofDigitChars 10 l 0 := fun _ =>
    Nat.ofDigitChars_eq_foldl.symm
  rw [hvalue, hvalue, hvalue, Nat.ofDigitChars_append, Nat.ofDigitChars_eq_ofDigitChars_zero]

theorem digitsValue_cons (c : Char) (l : List Char) :
    digitsValue (c :: l) = 10 ^ l.length * (c.toNat - '0'.toNat) + digitsValue l := by
  have hdigit : digitsValue [c] = c.toNat - '0'.toNat := by
    rw [digitsValue, List.foldl_cons, List.foldl_nil, Nat.mul_zero, Nat.zero_add]
  rw [← List.singleton_append, digitsValue_append, hdigit]

theorem digitsValue_zeros (n : ℕ) : digitsValue (List.replicate n '0') = 0 := by
  induction n with
  | zero => rfl
  | succ n ih => rw [List.replicate_succ, digitsValue_cons, ih, Nat.sub_self, Nat.mul_zero]

/-- Zeros behind a row are a power of ten. -/
theorem digitsValue_append_zeros (a : List Char) (n : ℕ) :
    digitsValue (a ++ List.replicate n '0') = 10 ^ n * digitsValue a := by
  rw [digitsValue_append, digitsValue_zeros, List.length_replicate, Nat.add_zero]

/-- Zeros in front of a row count for nothing. -/
theorem digitsValue_zeros_append (n : ℕ) (a : List Char) :
    digitsValue (List.replicate n '0' ++ a) = digitsValue a := by
  rw [digitsValue_append, digitsValue_zeros, Nat.mul_zero, Nat.zero_add]

theorem digit_bounds {c : Char} (h : c.isDigit = true) :
    '0'.toNat ≤ c.toNat ∧ c.toNat - '0'.toNat < 10 := by
  obtain ⟨hlow, hhigh⟩ := Char.isDigit_iff_toNat.1 h
  refine ⟨hlow, ?_⟩
  have hnine : '9'.toNat = '0'.toNat + 9 := rfl
  omega

theorem AllDigits.value_lt (h : AllDigits a) : digitsValue a < 10 ^ a.length := by
  induction a with
  | nil => exact Nat.one_pos
  | cons c l ih =>
      obtain ⟨hc, hl⟩ := List.forall_mem_cons.1 h
      have hdigit : c.toNat - '0'.toNat + 1 ≤ 10 := (digit_bounds hc).2
      rw [digitsValue_cons, List.length_cons]
      calc 10 ^ l.length * (c.toNat - '0'.toNat) + digitsValue l
          < 10 ^ l.length * (c.toNat - '0'.toNat) + 10 ^ l.length := Nat.add_lt_add_left (ih hl) _
        _ = 10 ^ l.length * (c.toNat - '0'.toNat + 1) := (Nat.mul_succ _ _).symm
        _ ≤ 10 ^ l.length * 10 := Nat.mul_le_mul_left _ hdigit
        _ = 10 ^ (l.length + 1) := (pow_succ _ _).symm

/-- **Rows of one length are known by their values.** -/
theorem AllDigits.eq_of_value_eq (ha : AllDigits a) (hb : AllDigits b)
    (hlength : a.length = b.length) (hvalue : digitsValue a = digitsValue b) : a = b := by
  induction a generalizing b with
  | nil => exact (List.eq_nil_of_length_eq_zero hlength.symm).symm
  | cons c l ih =>
      match b with
      | [] => cases hlength
      | d :: m =>
          obtain ⟨hc, hl⟩ := List.forall_mem_cons.1 ha
          obtain ⟨hd, hm⟩ := List.forall_mem_cons.1 hb
          have hrests : l.length = m.length := Nat.succ.inj hlength
          rw [digitsValue_cons, digitsValue_cons, ← hrests] at hvalue
          have hpos : 0 < 10 ^ l.length := by positivity
          have hleft := AllDigits.value_lt hl
          have hright := AllDigits.value_lt hm
          rw [← hrests] at hright
          -- the first digits are the quotients by the weight, the other digits the remainders
          have hfirst : c.toNat - '0'.toNat = d.toNat - '0'.toNat := by
            have hquotient := congrArg (· / 10 ^ l.length) hvalue
            rwa [Nat.mul_add_div hpos, Nat.mul_add_div hpos, Nat.div_eq_of_lt hleft,
              Nat.div_eq_of_lt hright] at hquotient
          have hchar : c = d := by
            have hlow := (digit_bounds hc).1
            have hlow' := (digit_bounds hd).1
            exact Char.toNat_inj.1 (by omega)
          rw [hfirst] at hvalue
          rw [hchar, ih hl hm hrests (Nat.add_left_cancel hvalue)]

/-! ## The digits of a number -/

theorem digitsValue_natDigits (n : ℕ) : digitsValue (natDigits n) = n :=
  Nat.ofDigitChars_eq_foldl.symm.trans Nat.ofDigitChars_ten_toDigits

theorem allDigits_natDigits (n : ℕ) : AllDigits (natDigits n) :=
  fun _ => Nat.isDigit_of_mem_toDigits (by decide) (by decide)

/-- A number has no more digits than it needs. -/
theorem natDigits_no_leading {n : ℕ} {rest : List Char} (h : natDigits n = '0' :: rest) :
    rest = [] := by
  cases rest with
  | nil => rfl
  | cons c rest =>
      have hdigits := allDigits_natDigits n
      have hvalue := digitsValue_natDigits n
      rw [h] at hdigits hvalue
      rw [digitsValue_cons, Nat.sub_self, Nat.mul_zero, Nat.zero_add] at hvalue
      -- the other digits would do
      have hlt := AllDigits.value_lt (List.forall_mem_cons.1 hdigits).2
      rw [hvalue] at hlt
      have hlength := (Nat.length_toDigits_le_iff (by decide) (Nat.succ_pos rest.length)).2 hlt
      have hlength' : (natDigits n).length ≤ rest.length + 1 := hlength
      rw [h, List.length_cons, List.length_cons] at hlength'
      omega

/-! ## Zeros at the end -/

theorem mem_of_mem_dropZeros {c : Char} (h : c ∈ Decimal.dropZeros a) : c ∈ a :=
  List.mem_reverse.1 ((List.dropWhile_sublist _).mem (List.mem_reverse.1 h))

theorem exists_dropZeros (digits : List Char) :
    ∃ n, digits = Decimal.dropZeros digits ++ List.replicate n '0' := by
  refine ⟨(digits.reverse.takeWhile (· == '0')).length, ?_⟩
  have hzeros : digits.reverse.takeWhile (· == '0')
      = List.replicate (digits.reverse.takeWhile (· == '0')).length '0' :=
    List.eq_replicate_iff.2
      ⟨rfl, fun c hc => beq_iff_eq.1 (List.all_eq_true.1 List.all_takeWhile c hc)⟩
  rw [Decimal.dropZeros, ← List.reverse_replicate, ← hzeros, ← List.reverse_append,
    List.takeWhile_append_dropWhile, List.reverse_reverse]

theorem getLast?_dropZeros (digits : List Char) :
    (Decimal.dropZeros digits).getLast? ≠ some '0' := by
  rw [Decimal.dropZeros, List.getLast?_reverse]
  intro h
  have hnot := List.head?_dropWhile_not (· == '0') digits.reverse
  rw [h] at hnot
  cases hnot

end LinearCalc
