import LinearCalc.Number.Formatted

set_option autoImplicit false

/-! # Tick labels

The labels on the axes: plain decimals with as many places as the distance of the ticks needs, and
no more zeros at the end than necessary.
-/

namespace LinearCalc

inductive TickError where
  /-- The distance of the ticks is not positive. -/
  | domain
  /-- The distance of the ticks is not a number. -/
  | notANumber
deriving DecidableEq, Repr

def TickError.message : TickError → String
  | domain => "math domain error"
  | notANumber => "cannot convert float NaN to integer"

def maxPlaces : Nat := 6

/-- The least distances for which `2`, `3`, `4` and `5` places are enough. They are the tenth, the
hundredth and so on, less what a logarithm cannot tell apart from them. -/
def placesTable : List (Float × Nat) :=
  [(0.09999999999999998, 2), (0.009999999999999995, 3), (0.0009999999999999996, 4),
    (0.0000999999999999999, 5)]

/-- The decimal places that labels need for ticks at the given distance: one more than its first
digit that is not zero, but none for a whole distance. -/
def tickPlaces (spacing : Float) : Except TickError Nat :=
  if 1 ≤ spacing then .ok 0
  -- what is not a number is not positive either, but it is another error
  else if spacing.isNaN then .error .notANumber
  else if spacing ≤ 0 then .error .domain
  else
    match placesTable.find? (fun entry => entry.1 ≤ spacing) with
    | some entry => .ok entry.2
    | none => .ok maxPlaces

/-- Takes zeros from the end of a decimal, and the point if it comes to stand at the end. -/
def trimFraction (text : List Char) : List Char :=
  if text.contains '.' then
    ((text.reverse.dropWhile (· == '0')).dropWhile (· == '.')).reverse
  else text

/-- Numbers this close to zero are taken for it. -/
def nearZero : Float := 1e-10

/-- A number, or zero if it is close to it. -/
def clampToZero (value : Float) : Float := if value.abs < nearZero then 0 else value

/-- A number with so many decimal places, as short as it can be written. -/
def tickChars (places : Nat) (value : Float) : List Char :=
  let text := trimFraction (fixedChars places (clampToZero value))
  if text = ['-', '0'] then ['0'] else text

/-- The label of the tick at `value` among ticks at distance `spacing`. -/
def tickLabel (value spacing : Float) : Except TickError String :=
  (tickPlaces spacing).map (fun places => String.ofList (tickChars places value))

end LinearCalc
