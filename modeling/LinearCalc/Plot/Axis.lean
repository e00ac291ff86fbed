import LinearCalc.Number.Formatted
import LinearCalc.Plot.Drawing

set_option autoImplicit false

/-! # Axes

The part of an axis that is to be seen, and its ticks. They are the multiples of a step from just
below the lower end to just above the upper one. An axis on which there are too many of them cannot
be drawn.
-/

namespace LinearCalc

/-- The part of an axis from `low` to `high`. -/
structure Extent where
  low : Float
  high : Float

namespace Extent

/-- How far the ends are moved when they lie too close together. -/
def margin : Float := 0.05

/-- Ends this close to each other, relative to their size, are too close. -/
def closeness : Float := 1e-15

/-- Ends this close to zero are as good as zero: a little above the least normal number. -/
def negligible : Float := 1e6 / closeness * 2.2250738585072014e-308

/-- The part of an axis between two numbers in any order. Its ends are moved apart if they lie too
close together. -/
def between (a b : Float) : Extent :=
  let low := if b < a then b else a
  let high := if b < a then a else b
  let size := if low.abs < high.abs then high.abs else low.abs
  if size < negligible then ⟨-margin, margin⟩
  else if high - low ≤ size * closeness then
    ⟨low - margin * low.abs, high + margin * high.abs⟩
  else ⟨low, high⟩

def length (e : Extent) : Float := (e.high - e.low).abs

/-! ## Ticks -/

/-- The part of a step by which a tick may lie outside. -/
def slack : Float := 1e-10

/-- The number of the first multiple of `step` that is not below the lower end. The step is a power
of two, so that dividing by it is exact. -/
def firstMultiple (e : Extent) (step : Float) : Float :=
  let steps := e.low / step
  if steps - steps.floor < slack then steps.floor else steps.floor + 1

/-- How many ticks there are at multiples of `step`, unless the first of them is too far away. One
of them lies below the lower end, and at least one above the upper end. -/
def tickCount? (e : Extent) (step : Float) : Option Float :=
  let room := e.high - e.firstMultiple step * step + 0.001 * step
  if room.isFinite then some ((room / step).floor + 3) else none

end Extent

def tickBytes : Nat := 8

/-- There are fewer ticks than this. -/
def countBound : Nat := twoPow 63

def bytesBound : Nat := twoPow 63

def memoryBound : Nat := twoPow 38

def outOfMemory (count : Nat) : Fault :=
  .broken ("Unable to allocate " ++ memoryText (tickBytes * count) ++
    " for an array with shape (" ++ toString count ++ ",) and data type float64")

def uncountable : Fault := .refused "Maximum allowed size exceeded"

/-- There are too many ticks to give each of them an address. -/
def unaddressable : Fault :=
  .refused ("array is too big; \x60arr.size * arr.dtype.itemsize\x60 is larger than the maximum " ++
    "possible size.")

def countFault? (count : Nat) : Option Fault :=
  if countBound ≤ count then some uncountable
  else if bytesBound ≤ tickBytes * count then some unaddressable
  else if memoryBound ≤ tickBytes * count then some (outOfMemory count)
  else none

/-- Why an axis cannot have ticks at multiples of `step`, if so. -/
def Extent.ticksFault? (e : Extent) (step : Float) : Option Fault :=
  match e.tickCount? step with
  | none => some (.refused "arange: cannot compute length")
  | some count =>
    match (Binary64.ofFloat count).toInt? with
    | none => some uncountable
    | some n => countFault? n.toNat

end LinearCalc
