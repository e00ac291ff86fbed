import LinearCalc.Number.Numeral
import LinearCalc.View.Viewport

set_option autoImplicit false

/-! # Lengths in pixels

The sides of a canvas in pixels: whole numbers of any size, or floating-point numbers. Whole
numbers can be too large for anything to be computed from them. Asking for a side of length zero is
asking for nothing, so that no canvas is made without width or height.
-/

namespace LinearCalc

inductive Pixels where
  | whole (n : Int)
  | real (x : Float)

instance (n : Nat) : OfNat Pixels n := ⟨.whole n⟩

namespace Pixels

/-- The same length in inches, of which each has a hundred pixels. -/
def inches? : Pixels → Option Float
  | whole n => nearestDecimal? n 2
  | real x => some (x / 100)

def half? : Pixels → Option Float
  | whole n => nearestDecimal? (5 * n) 1
  | real x => some (x / 2)

def float? : Pixels → Option Float
  | whole n => nearestFloat? n
  | real x => some x

/-- A length as a floating-point number, which is infinite if it is too large. -/
def toFloat : Pixels → Float
  | whole n => Float.ofInt n
  | real x => x

def isZero : Pixels → Bool
  | whole n => n == 0
  | real x => x == 0

/-- The length that is asked for, or else the usual one. Zero does not count as asked for. -/
def orUsual (usual : Pixels) (asked : Option Pixels) : Pixels :=
  (asked.filter (fun length => !length.isZero)).getD usual

theorem isZero_orUsual {usual : Pixels} (h : usual.isZero = false) (asked : Option Pixels) :
    (usual.orUsual asked).isZero = false := by
  unfold orUsual
  cases hasked : asked.filter (fun length => !length.isZero) with
  | none => exact h
  | some length => simpa using (Option.filter_eq_some_iff.1 hasked).2

end Pixels

/-- The canvas for a plot with the sides that are asked for. -/
def canvasFor (width height : Option Pixels) : Canvas Pixels :=
  let usual : Canvas Pixels := defaultCanvas
  ⟨usual.width.orUsual width, usual.height.orUsual height⟩

def Canvas.toFloats (c : Canvas Pixels) : Canvas Float := ⟨c.width.toFloat, c.height.toFloat⟩

end LinearCalc
