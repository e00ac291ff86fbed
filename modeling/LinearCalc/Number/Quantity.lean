import LinearCalc.Number.Numeral
import LinearCalc.Number.Formatted

set_option autoImplicit false

/-! # Quantities

Things that may stand for a number: numbers themselves, texts that can be read as one, truth
values, or nothing at all. One that stands for no number is written as it is.
-/

namespace LinearCalc

/-- Something that may stand for a number. -/
inductive Quantity where
  | float (x : Float)
  | integer (n : Int)
  | text (s : String)
  | truth (b : Bool)
  | nothing

namespace Quantity

def toFloat? : Quantity → Option Float
  | float x => some x
  | integer n => nearestFloat? n
  | text s => readDecimal? s
  | truth b => some (if b then 1 else 0)
  | nothing => none

/-- The integer that a quantity stands for; the fraction of a number is dropped. -/
def toInteger? : Quantity → Option Int
  | float x => (Binary64.ofFloat x).integerPart?
  | integer n => some n
  | text s => readInteger? s
  | truth b => some (if b then 1 else 0)
  | nothing => none

def plainText : Quantity → String
  | float x => shortestText x
  | integer n => toString n
  | text s => s
  | truth b => if b then "True" else "False"
  | nothing => "None"

/-- Writes a quantity at a precision, or as it is when it or the precision stands for no number. -/
def numberText (precision value : Quantity) : String :=
  match precision.toInteger?, value.toFloat? with
  | some p, some x =>
    if 0 ≤ p ∧ p ≤ maxPrecision then significantText p.toNat x else value.plainText
  | _, _ => value.plainText

end Quantity

end LinearCalc
