import LinearCalc.Number.Binary64

set_option autoImplicit false

/-! # Decimals

Decimal digits with an exponent, and how they are written out. The digits `d₀d₁d₂…` with exponent
`e` stand for `d₀.d₁d₂… · 10^e`. A `DecimalStyle` says for which exponents a number is written
positionally and how the exponent is written otherwise.
-/

namespace LinearCalc

/-- The number `d₀.d₁d₂… · 10^exponent`. -/
structure Decimal where
  digits : List Char
  exponent : Int
deriving DecidableEq, Repr

/-- The decimal digits of a natural number; zero has the digit `0`. -/
def natDigits (n : Nat) : List Char := Nat.toDigits 10 n

namespace Decimal

/-- Removes zeros from the end of a row of digits. -/
def dropZeros (digits : List Char) : List Char :=
  (digits.reverse.dropWhile (· == '0')).reverse

/-- Removes zeros from the end of the digits, but leaves one digit. -/
def trim (d : Decimal) : Decimal :=
  match dropZeros d.digits with
  | [] => ⟨d.digits.take 1, d.exponent⟩
  | digits => ⟨digits, d.exponent⟩

end Decimal

/-! ## Rounding to a number of digits -/

/-- The largest `e` with `10^e ≤ r`, for a quotient that is not zero. -/
def Ratio.exponent10 (r : Ratio) : Int :=
  -- the difference of the lengths is the exponent or one more
  let e : Int := ((natDigits r.num).length : Int) - ((natDigits r.den).length : Int)
  if r.den * tenPow e.toNat ≤ r.num * tenPow (-e).toNat then e else e - 1

def Ratio.scale10 (r : Ratio) (k : Int) : Ratio :=
  ⟨r.num * tenPow k.toNat, r.den * tenPow (-k).toNat⟩

/-- The `p` leading digits of a quotient that is not zero, rounded to nearest with ties to even;
when nines round up to a power of ten, the exponent grows by one. -/
def Decimal.round (p : Nat) (r : Ratio) : Decimal :=
  let e := r.exponent10
  let scaled := r.scale10 ((p : Int) - 1 - e)
  let n := roundDiv scaled.num scaled.den
  if n = tenPow p then ⟨natDigits (tenPow (p - 1)), e + 1⟩ else ⟨natDigits n, e⟩

/-! ## Writing -/

structure DecimalStyle where
  /-- The least exponent of a number that is written positionally. -/
  least : Int
  /-- The first exponent that is too large for it. -/
  bound : Int
  /-- A whole number written positionally ends in `.0`. -/
  wholePoint : Bool
  /-- A single digit before an exponent is followed by `.0`. -/
  mantissaPoint : Bool
  /-- The fewest digits of an exponent. -/
  exponentDigits : Nat

namespace DecimalStyle

/-- Fills up with zeros on the left to the given length. -/
def padLeft (length : Nat) (digits : List Char) : List Char :=
  List.replicate (length - digits.length) '0' ++ digits

def exponent (style : DecimalStyle) (e : Int) : List Char :=
  (if e < 0 then '-' else '+') :: padLeft style.exponentDigits (natDigits e.natAbs)

def isPositional (style : DecimalStyle) (e : Int) : Bool :=
  decide (style.least ≤ e) && decide (e < style.bound)

/-- Digits with the point after the first one. -/
def mantissa (style : DecimalStyle) (d : Decimal) : List Char :=
  let fraction :=
    match d.digits.drop 1 with
    | [] => if style.mantissaPoint then ['.', '0'] else []
    | more => '.' :: more
  d.digits.take 1 ++ fraction

/-- Digits with the point after the first one, and the exponent after them. -/
def scientific (style : DecimalStyle) (d : Decimal) : List Char :=
  style.mantissa d ++ 'e' :: style.exponent d.exponent

/-- Digits with the point where it belongs, filled up with zeros as far as it. -/
def positional (style : DecimalStyle) (d : Decimal) : List Char :=
  if d.exponent < 0 then
    '0' :: '.' :: (List.replicate ((-d.exponent).toNat - 1) '0' ++ d.digits)
  else
    let whole := d.exponent.toNat + 1
    let fraction :=
      match d.digits.drop whole with
      | [] => if style.wholePoint then ['.', '0'] else []
      | more => '.' :: more
    d.digits.take whole ++ List.replicate (whole - d.digits.length) '0' ++ fraction

/-- Writes a decimal, with a minus if it is negative. -/
def write (style : DecimalStyle) (negative : Bool) (d : Decimal) : String :=
  let digits :=
    if style.isPositional d.exponent then style.positional d else style.scientific d
  String.ofList (if negative then '-' :: digits else digits)

end DecimalStyle

/-! ## Numbers that are not finite -/

def infinityText (negative : Bool) : String := if negative then "-inf" else "inf"

def nanText : String := "nan"

end LinearCalc
