import LinearCalc.Number.Rounding

set_option autoImplicit false

/-! # The value of a floating-point number

Taking a floating-point number apart. A finite one is `m · 2^q` up to its sign, with natural `m`
and integral `q`; everything that writes or rounds numbers works on `m` and `q` exactly.
-/

namespace LinearCalc

/-- A floating-point number taken apart. -/
inductive Binary64 where
  | nan
  | infinite (negative : Bool)
  /-- The number `m · 2^q`, negated if `negative`. -/
  | finite (negative : Bool) (m : Nat) (q : Int)
deriving DecidableEq, Repr

/-- A positive quotient of natural numbers. -/
structure Ratio where
  num : Nat
  den : Nat
deriving DecidableEq, Repr

def Ratio.ofScaled (m : Nat) (q : Int) : Ratio := ⟨m * twoPow q.toNat, twoPow (-q).toNat⟩

namespace Binary64

/-- Takes a number apart: one bit for the sign, eleven for the exponent, and fifty-two for the
fraction, before which a one is understood unless the exponent is the least. -/
def ofFloat (x : Float) : Binary64 :=
  let bits : Nat := x.toBits.toNat
  let negative := twoPow 63 ≤ bits
  let exponent : Nat := bits / twoPow 52 % twoPow 11
  let fraction : Nat := bits % twoPow 52
  if exponent = 2047 then
    if fraction = 0 then infinite negative else nan
  else if exponent = 0 then
    finite negative fraction (-1074)
  else
    finite negative (twoPow 52 + fraction) ((exponent : Int) - 1075)

def signed (negative : Bool) (n : Nat) : Int := if negative then -(n : Int) else n

/-- The integer part of a number: its fraction is dropped. -/
def integerPart? : Binary64 → Option Int
  | finite negative m q =>
    let value := Ratio.ofScaled m q
    some (signed negative (value.num / value.den))
  | _ => none

/-- The integer that a number is, if it is one. -/
def toInt? : Binary64 → Option Int
  | finite negative m q =>
    let value := Ratio.ofScaled m q
    if value.num % value.den = 0 then some (signed negative (value.num / value.den)) else none
  | _ => none

end Binary64

end LinearCalc
