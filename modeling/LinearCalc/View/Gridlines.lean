set_option autoImplicit false

/-! # Grid lines

How far apart the lines of a grid are drawn: the distance is a power of two, found by doubling
until the lines are not too close and then halving until they are not too far apart. The search
need not end: once the distance has grown beyond all floating-point numbers, halving it leaves it
as it is. The functions that search are `none` where they never come to a result.
-/

namespace LinearCalc

/-- A loop: whether it goes on from a value, and with which one. -/
structure Loop (α : Type) where
  goesOn : α → Bool
  next : α → α

/-- The value with which a loop ends that begins with `a`. -/
def Loop.run {α : Type} (loop : Loop α) (a : α) : Option α :=
  if loop.goesOn a then loop |>.run (loop.next a) else some a
partial_fixpoint

/-- Lines are at least this many pixels apart. -/
def minGridPixels : Float := 50

def maxGridPixels : Float := 100

/-- Doubles a distance until it is wide enough. -/
def widen (zoom spacing : Float) : Option Float :=
  let loop : Loop Float := ⟨fun s => s * zoom < minGridPixels, fun s => s * 2⟩
  loop.run spacing

theorem widen_eq (zoom s : Float) :
    widen zoom s = if s * zoom < minGridPixels then widen zoom (s * 2) else some s := by
  unfold widen
  rw [Loop.run]
  simp only [decide_eq_true_eq]

/-- Halves a distance until it is narrow enough. -/
def narrow (zoom spacing : Float) : Option Float :=
  let loop : Loop Float := ⟨fun s => maxGridPixels < s * zoom, fun s => s / 2⟩
  loop.run spacing

theorem narrow_eq (zoom s : Float) :
    narrow zoom s = if maxGridPixels < s * zoom then narrow zoom (s / 2) else some s := by
  unfold narrow
  rw [Loop.run]
  simp only [decide_eq_true_eq]

/-- The distance of the grid lines in units of the plane; one for a zoom that is not a positive
finite number. -/
def gridSpacing? (zoom : Float) : Option Float :=
  if !zoom.isFinite || zoom ≤ 0 then some 1 else (widen zoom 1).bind (narrow zoom)

end LinearCalc
