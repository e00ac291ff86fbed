import LinearCalc.Plot.Drawing
import LinearCalc.View.Gridlines

set_option autoImplicit false

/-! # Images

The colours of a drawing, pixel by pixel: arrows from the origin, each label in a colour of its
own, on the two axes and a grid. Everything is measured in pixels, so that lines are equally thick
at every zoom.
-/

namespace LinearCalc

/-- A colour by its parts of red, green and blue. -/
structure Colour where
  red : UInt8
  green : UInt8
  blue : UInt8
deriving DecidableEq, Repr

namespace Colour

def background : Colour := ⟨0xAA, 0xAA, 0xAA⟩

def gridLine : Colour := ⟨0x7A, 0x7A, 0x7A⟩

def axis : Colour := ⟨0, 0, 0⟩

/-- The colours of the labels, which are used in turn. -/
def cycle : List Colour :=
  [⟨0x1F, 0x77, 0xB4⟩, ⟨0xFF, 0x7F, 0x0E⟩, ⟨0x2C, 0xA0, 0x2C⟩, ⟨0xD6, 0x27, 0x28⟩,
    ⟨0x94, 0x67, 0xBD⟩, ⟨0x8C, 0x56, 0x4B⟩, ⟨0xE3, 0x77, 0xC2⟩, ⟨0x7F, 0x7F, 0x7F⟩,
    ⟨0xBC, 0xBD, 0x22⟩, ⟨0x17, 0xBE, 0xCF⟩]

def ofPlace (place : Nat) : Colour := (cycle[place % cycle.length]?).getD axis

end Colour

structure Arrow where
  foot : Position Float
  tip : Position Float
  colour : Colour

namespace Arrow

/-- Half the thickness of a shaft. -/
def halfShaft : Float := 1.5

def headLength : Float := 12

/-- Half the width of a head at its base, as a part of its length. -/
def headSlope : Float := 0.4

/-- The arrow covers a point: its shaft up to the head, or the head, which narrows to the tip. -/
def covers (a : Arrow) (p : Position Float) : Bool :=
  let dx := a.tip.x - a.foot.x
  let dy := a.tip.y - a.foot.y
  let length := (dx * dx + dy * dy).sqrt
  if length == 0 then false
  else
    -- coordinates of the point along the arrow and across it
    let along := ((p.x - a.foot.x) * dx + (p.y - a.foot.y) * dy) / length
    let across := (((p.x - a.foot.x) * dy - (p.y - a.foot.y) * dx) / length).abs
    if along < 0 || length < along then false
    else if along < length - headLength then across ≤ halfShaft
    else across ≤ (length - along) * headSlope

end Arrow

/-- What is to be seen of a drawing on its canvas. -/
structure Scene where
  origin : Position Float
  /-- The distance of the grid lines. -/
  step : Float
  arrows : List Arrow

namespace Scene

/-- How far `x` is from the closest of the lines at multiples of `step` from `start`. -/
def distanceToLine (start step x : Float) : Float :=
  let lines := (x - start) / step
  ((lines - lines.round) * step).abs

def colourAt (s : Scene) (p : Position Float) : Colour :=
  match s.arrows.find? (fun a => a.covers p) with
  | some a => a.colour
  | none =>
    if (p.x - s.origin.x).abs ≤ 1 || (p.y - s.origin.y).abs ≤ 1 then .axis
    else if distanceToLine s.origin.x s.step p.x ≤ 0.5 ||
        distanceToLine s.origin.y s.step p.y ≤ 0.5 then .gridLine
    else .background

end Scene

namespace Drawing

/-- The scene of a drawing, unless the distance of its grid lines is never found. -/
def scene? (d : Drawing) : Option Scene :=
  let onCanvas (p : Position Float) := d.view.toScreen d.canvas.toFloats p
  (gridSpacing? d.view.zoom).map (fun spacing =>
    { origin := onCanvas ⟨0, 0⟩
      step := spacing * d.view.zoom.abs
      arrows := d.arrows.zipIdx.flatMap (fun (entry, place) =>
        entry.2.map (fun v => ⟨onCanvas ⟨0, 0⟩, onCanvas v, .ofPlace place⟩)) })

end Drawing

end LinearCalc
