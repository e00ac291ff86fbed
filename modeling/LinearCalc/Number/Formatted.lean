import LinearCalc.Number.Shortest

set_option autoImplicit false

/-! # Formatted numbers

Writing numbers with as many digits as are asked for. Either the places after the point are fixed,
or the significant digits are limited; both are rounded correctly from the exact value, and a tie
goes to the even last digit. Amounts of memory are told with three digits in the largest unit of
which there is at least one.
-/

namespace LinearCalc

/-! ## Fixed places -/

/-- The digits of `n · 10^(-places)`, with a point if there are places. -/
def placedDigits (places n : Nat) : List Char :=
  let digits := DecimalStyle.padLeft (places + 1) (natDigits n)
  let whole := digits.length - places
  if places = 0 then digits else digits.take whole ++ '.' :: digits.drop whole

/-- The quotient `r` rounded to a whole number of units of `10^(-places)`. -/
def Ratio.roundPlaces (places : Nat) (r : Ratio) : Nat := roundDiv (r.num * tenPow places) r.den

def fixedChars (places : Nat) (x : Float) : List Char :=
  match Binary64.ofFloat x with
  | .nan => nanText.toList
  | .infinite negative => (infinityText negative).toList
  | .finite negative m q =>
    let digits := placedDigits places ((Ratio.ofScaled m q).roundPlaces places)
    if negative then '-' :: digits else digits

/-! ## Significant digits -/

/-- The significant digits that are written when nothing else is asked for. -/
def defaultPrecision : Int := 6

def maxPrecision : Int := 2147483647

/-- No floating-point number has more significant digits than this. -/
def mostDigits : Nat := 800

/-- Numbers from `10^-4` on are written positionally as far as `p` digits reach; exponents have a
sign and at least two digits. -/
def significantStyle (p : Nat) : DecimalStyle := ⟨-4, p, false, false, 2⟩

/-- Writes a number with at most `p` significant digits; asking for none gives one. -/
def significantText (p : Nat) (x : Float) : String :=
  let p := max p 1
  match Binary64.ofFloat x with
  | .nan => nanText
  | .infinite negative => infinityText negative
  | .finite negative 0 _ => (significantStyle p).write negative ⟨['0'], 0⟩
  | .finite negative m q =>
    (significantStyle p).write negative
      (Decimal.round (min p mostDigits) (Ratio.ofScaled m q)).trim

/-- The text of a number at a precision. With a precision that is negative or too large the
shortest text is written. -/
def numberText (precision : Int) (x : Float) : String :=
  if 0 ≤ precision ∧ precision ≤ maxPrecision then significantText precision.toNat x
  else shortestText x

/-! ## Amounts of memory -/

/-- The units of memory, each 1024 times as large as the one before it. -/
def memoryUnits : List String := ["bytes", "KiB", "MiB", "GiB", "TiB", "PiB", "EiB"]

def unitSize (place : Nat) : Nat := twoPow (10 * place)

def unitPlace (bytes : Nat) : Nat :=
  let place := bytes.log2 / 10
  -- 1024 of one unit are one of the next
  if roundDiv bytes (unitSize place) = unitSize 1 then place + 1 else place

/-- A quotient of at least one: three significant digits, or more when there are more of them
before the point, which is always written. -/
def amountChars (r : Ratio) : List Char :=
  let whole := natDigits (roundDiv r.num r.den)
  if whole.length ≤ 3 then
    let d := Decimal.round 3 r
    let places := d.exponent.toNat + 1
    d.digits.take places ++ '.' :: d.digits.drop places
  else whole ++ ['.']

def memoryText (bytes : Nat) : String :=
  let place := unitPlace bytes
  let amount :=
    if place = 0 then natDigits bytes else amountChars ⟨bytes, unitSize place⟩
  String.ofList amount ++ " " ++ (memoryUnits[place]?).getD ""

end LinearCalc
