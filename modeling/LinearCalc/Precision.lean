import LinearCalc.Evaluate

set_option autoImplicit false

/-! # Precision and breakdowns

How many significant digits the numbers in a result have, as far as anything is known about it. An
option can be given with nothing in it at all, which is less than an empty text. The program does
not expect that, and breaks down where it comes to need what is missing.
-/

namespace LinearCalc

/-- What is missing when the program breaks down. -/
inductive Breakdown where
  /-- The level of the log. -/
  | level
  /-- A text to be plotted. -/
  | plotText
  /-- The number of digits of a result. -/
  | digits
deriving DecidableEq, Repr

def Breakdown.message : Breakdown → String
  | level => "'list' object has no attribute 'upper'"
  | plotText => "'list' object has no attribute 'partition'"
  | digits => "int() argument must be a string, a bytes-like object or a real number, not 'list'"

/-- How many significant digits the numbers in a result have. -/
inductive Precision where
  /-- As many as usual. -/
  | usual
  | digits (n : Int)
  /-- Digits were asked for without a number of them. -/
  | unknown
deriving DecidableEq, Repr

/-- A number of digits that makes no sense. A single number is written in its shortest form
then. -/
def noDigits : Int := -1

/-- Evaluates a text. Whole numbers are written even when the number of digits is unknown. -/
def evaluateAt (text : String) : Precision → Except Breakdown Outcome
  | .usual => .ok (evaluate text defaultPrecision)
  | .digits n => .ok (evaluate text n)
  | .unknown =>
    let o := evaluate text noDigits
    if o.value.any Expr.hasFraction then .error .digits else .ok o

end LinearCalc
