set_option autoImplicit false

/-! # Viewports

The part of the plane that a canvas shows. In the plane `y` points up; on the canvas positions are
counted from the top left corner and `y` points down. The definitions serve numbers of any type;
a viewport with zoom zero shows nothing, and whatever has to divide by the zoom fails for it.
-/

namespace LinearCalc

/-- A position in the plane or on the canvas. -/
structure Position (α : Type) where
  x : α
  y : α
deriving DecidableEq, Repr

structure Canvas (α : Type) where
  width : α
  height : α

/-- The point at the centre of the canvas, and how many pixels are one unit. -/
structure Viewport (α : Type) where
  centre : Position α
  zoom : α

structure Bounds (α : Type) where
  minX : α
  maxX : α
  minY : α
  maxY : α

structure DivisionByZero where

def DivisionByZero.message : String := "float division by zero"

variable {α : Type}

/-- The quotient of two numbers, unless the divisor is zero. -/
def divide? [Div α] [Zero α] [BEq α] (a b : α) : Except DivisionByZero α :=
  if b == 0 then .error ⟨⟩ else .ok (a / b)

namespace Canvas

def middle [Div α] [OfNat α 2] (c : Canvas α) : Position α := ⟨c.width / 2, c.height / 2⟩

end Canvas

namespace Viewport

/-- Where a point of the plane lies on the canvas. -/
def toScreen [Add α] [Sub α] [Mul α] [Div α] [OfNat α 2] (v : Viewport α) (c : Canvas α)
    (p : Position α) : Position α :=
  ⟨(p.x - v.centre.x) * v.zoom + c.middle.x, (v.centre.y - p.y) * v.zoom + c.middle.y⟩

/-- The point of the plane that lies at a position on the canvas. -/
def toGraph [Add α] [Sub α] [Div α] [Zero α] [BEq α] [OfNat α 2] (v : Viewport α)
    (c : Canvas α) (p : Position α) : Except DivisionByZero (Position α) := do
  let dx ← divide? (p.x - c.middle.x) v.zoom
  let dy ← divide? (p.y - c.middle.y) v.zoom
  return ⟨dx + v.centre.x, v.centre.y - dy⟩

def bounds [Add α] [Sub α] [Div α] [Zero α] [BEq α] [OfNat α 2] (v : Viewport α)
    (c : Canvas α) : Except DivisionByZero (Bounds α) := do
  let topLeft ← v.toGraph c ⟨0, 0⟩
  let bottomRight ← v.toGraph c ⟨c.width, c.height⟩
  return ⟨topLeft.x, bottomRight.x, bottomRight.y, topLeft.y⟩

/-- Moves the view as if its content were dragged by so many pixels to the right and down. -/
def pan [Add α] [Sub α] [Div α] [Zero α] [BEq α] (v : Viewport α) (dx dy : α) :
    Except DivisionByZero (Viewport α) := do
  let x ← divide? dx v.zoom
  let y ← divide? dy v.zoom
  return ⟨⟨v.centre.x - x, v.centre.y + y⟩, v.zoom⟩

/-- What one step of zooming in or out multiplies the zoom by. -/
def zoomFactor [OfScientific α] (out : Bool) : α := if out then 0.9 else 1.1

def zoomStep [Mul α] [OfScientific α] (v : Viewport α) (out : Bool) : Viewport α :=
  ⟨v.centre, v.zoom * zoomFactor out⟩

/-- Zooms as the wheel is turned: out for a positive turn, and in otherwise. -/
def zoomBy [Mul α] [OfScientific α] [Zero α] [LT α] [DecidableLT α] (v : Viewport α) (turn : α) :
    Viewport α := v.zoomStep (0 < turn)

end Viewport

def defaultViewport : Viewport Float := ⟨⟨0, 0⟩, 50⟩

/-- The size of a canvas if nothing else is asked for. -/
def defaultCanvas [OfNat α 800] [OfNat α 600] : Canvas α := ⟨800, 600⟩

end LinearCalc
