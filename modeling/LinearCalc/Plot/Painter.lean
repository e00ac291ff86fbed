import LinearCalc.Legend
import LinearCalc.Number.Shortest
import LinearCalc.Plot.Axis
import LinearCalc.Plot.Drawing
import LinearCalc.Grid
import LinearCalc.View.Gridlines

set_option autoImplicit false

/-! # The usual painter

What can go wrong when a drawing is painted. Figures and images have bounds for their size, the
ends of the axes are finite numbers, there is a limit to how many ticks there are, and the formulas
in the legend have to be readable. All of it but the figure and the axes is found out only when the
image is to be saved. And painting need not come to an end: the ticks lie on the lines of the grid,
and the search for the distance of these lines may go on for ever.
-/

namespace LinearCalc

/-- A part of the painter's work, which may fail. It is `none` where it never comes to an end. -/
abbrev Attempt (α : Type) := ExceptT Fault Option α

/-- The fault with which work fails. Work without an end does not come to one. -/
def faultOf? {α : Type} (work : Attempt α) : Option Fault :=
  match work.run with
  | some (.error fault) => some fault
  | _ => none

def orFault {α : Type} (fault : Fault) : Option α → Attempt α
  | some a => pure a
  | none => throw fault

def unlessFault : Option Fault → Attempt Unit
  | some fault => throw fault
  | none => pure ()

/-- A part of a whole number that is too large for a floating-point number. -/
def hugePart : Fault := .broken "integer division result too large for a float"

/-- A whole number that is too large for a floating-point number. -/
def hugeWhole : Fault := .broken "int too large to convert to float"

/-- Lengths that cannot be told apart from nothing or from everything. -/
def singular : Fault := .refused "Singular matrix"

/-! ## The figure -/

def isFigureLength (x : Float) : Bool := x.isFinite && decide (0 ≤ x)

/-- The size of a figure in inches. It is finite and not negative. -/
def figureSize (canvas : Canvas Pixels) : Attempt (Canvas Float) := do
  let width ← orFault hugePart canvas.width.inches?
  let height ← orFault hugePart canvas.height.inches?
  if isFigureLength width && isFigureLength height then return ⟨width, height⟩
  else
    throw (.refused ("figure size must be positive finite not (" ++ shortestText width ++ ", " ++
      shortestText height ++ ")"))

/-! ## The axes -/

/-- The two axes of a drawing, with ticks at the multiples of a step. -/
structure Axes where
  x : Extent
  y : Extent
  step : Float

def visibleBounds (view : Viewport Float) (canvas : Canvas Pixels) : Attempt (Bounds Float) := do
  let noZoom : Fault := .broken DivisionByZero.message
  let _ ← orFault hugePart canvas.width.half?
  if view.zoom == 0 then throw noZoom
  let _ ← orFault hugePart canvas.height.half?
  let width ← orFault hugeWhole canvas.width.float?
  let height ← orFault hugeWhole canvas.height.float?
  (view.bounds ⟨width, height⟩).mapError (fun _ => noZoom)

/-- The axes of what can be seen. They have finite ends and a finite length. The distance of the
grid lines is searched for before the ends are looked at. -/
def axesOf (view : Viewport Float) (canvas : Canvas Pixels) : Attempt Axes := do
  let b ← visibleBounds view canvas
  let step ← gridSpacing? view.zoom
  if [b.minX, b.maxX, b.minY, b.maxY].all Float.isFinite then
    let axes : Axes := ⟨.between b.minX b.maxX, .between b.minY b.maxY, step⟩
    if axes.x.length.isFinite && axes.y.length.isFinite then return axes else throw singular
  else throw (.refused "Axis limits cannot be NaN or Inf")

/-! ## The image -/

/-- The size of the image of a figure in pixels. -/
def imageSize (figure : Canvas Float) : Canvas Float := ⟨figure.width * 100, figure.height * 100⟩

/-- The sides of an image are shorter than this. -/
def sideBound : Nat := twoPow 23

def pixelBytes : Nat := 4

/-- The fault of an image with sides that do not even fit into 32 bits. -/
def unfitImage (width height : Nat) : Fault :=
  .broken ("__init__(): incompatible constructor arguments. " ++
    "The following argument types are supported:\n    1. matplotlib.backends._backend_agg." ++
    "RendererAgg(width: int, height: int, dpi: float)\n\nInvoked with: " ++ toString width ++
    ", " ++ toString height ++ ", 100")

def hugeImage (width height : Nat) : Fault :=
  .refused ("Image size of " ++ toString width ++ "x" ++ toString height ++
    " pixels is too large. It must be less than 2^23 in each direction.")

def wholeLength? (x : Float) : Option Nat := (Binary64.ofFloat x).integerPart?.map Int.toNat

/-- Why there cannot be an image of this size, if so. -/
def sizeFault? (size : Canvas Float) : Option Fault :=
  match wholeLength? size.width, wholeLength? size.height with
  | some width, some height =>
    if twoPow 32 ≤ width || twoPow 32 ≤ height then some (unfitImage width height)
    else if sideBound ≤ width || sideBound ≤ height then some (hugeImage width height)
    else if memoryBound ≤ pixelBytes * (width * height) then some (.broken "std::bad_alloc")
    else none
  | _, _ => some (.broken "cannot convert float infinity to integer")

/-! ## The frame of the axes -/

/-- Where the frame begins, as a part of the width of the image. -/
def frameLeft : Float := 0.125

/-- The parts of the image that the frame can take up. -/
def frameRoom : Canvas Float := ⟨0.775, 0.77⟩

/-- No axis is taken to be shorter than this. -/
def leastLength : Float := 1e-30

def greater (a b : Float) : Float := if a < b then b else a

/-- The height of the frame when its width is one: units are equally long on both axes. -/
def Axes.shape (a : Axes) : Float := greater a.y.length leastLength / greater a.x.length leastLength

/-- The width of the frame in pixels. It is put into the middle of its room. -/
def frameWidth (image : Canvas Float) (shape : Float) : Float :=
  let imageShape := image.height / image.width
  let width :=
    if frameRoom.width * shape / imageShape ≤ frameRoom.height then frameRoom.width
    else frameRoom.height * imageShape / shape
  let right := frameLeft + width
  let shift := frameLeft + 0.5 * (frameRoom.width - (right - frameLeft)) - frameLeft
  (right + shift) * image.width - (frameLeft + shift) * image.width

/-- Why there cannot be a frame for the axes, if so. -/
def frameFault? (image : Canvas Float) (axes : Axes) : Option Fault :=
  if axes.shape ≤ 0 then some (.refused "'box_aspect' and 'fig_aspect' must be positive")
  else if frameWidth image axes.shape == 0 then some singular
  else none

/-! ## Painting -/

/-- The fault of a legend with a formula that cannot be read. -/
def Drawing.legendFault? (d : Drawing) : Option Fault :=
  (Legend.complaint? d.arrows.labels).map (fun c => .refused c.report)

/-- What is done before the image of a drawing is written. -/
def Drawing.compose (d : Drawing) : Attempt Unit := do
  let image := imageSize (← figureSize d.canvas)
  let axes ← axesOf d.view d.canvas
  unlessFault (sizeFault? image)
  unlessFault (frameFault? image axes)
  unlessFault (axes.x.ticksFault? axes.step)
  unlessFault (axes.y.ticksFault? axes.step)
  unlessFault d.legendFault?

/-- The usual painter comes to an end with a drawing. -/
def Drawing.ends (d : Drawing) : Bool := d.compose.run.isSome

/-- The painter that draws for a file at `path`, and then finds that saving the image fails or does
not. It tells how painting ends only if `Drawing.ends`: a stage that goes on for ever has no
fault. -/
def usualPainter (path : String) (saving : Option Fault) : Painter := fun d stage =>
  match stage with
  | .figure => faultOf? (figureSize d.canvas)
  | .axes => faultOf? (axesOf d.view d.canvas)
  | .arrows _ => none
  | .legend => none
  | .save => fileTypeFault? path <|> faultOf? d.compose <|> saving

end LinearCalc
