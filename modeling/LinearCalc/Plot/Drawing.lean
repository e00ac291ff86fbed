import LinearCalc.Labelled
import LinearCalc.View.Pixels
import LinearCalc.Text.Quoted

set_option autoImplicit false

/-! # Drawings

How a drawing gets into its file. A painter works in stages, each of which may fail: it makes the
figure, then sets up the axes, draws the arrows of every label and the legend, and at last saves
the image. Only the last stage writes to the file. A drawing without a file of its own gets a
temporary one, which is there, without an image, before the painter begins.

The type of an image file is told by the end of its name. A name without such an end stands for the
usual type.
-/

namespace LinearCalc

/-- Arrows from the origin to be drawn, and the part of the plane to be seen. -/
structure Drawing where
  view : Viewport Float
  canvas : Canvas Pixels
  arrows : Labelled (List (Position Float))

/-- The work of a painter, stage by stage. -/
inductive Stage where
  | figure
  | axes
  | arrows (label : String)
  | legend
  | save
deriving DecidableEq, Repr

inductive Fault where
  /-- The drawing cannot be accepted as it is, or its file cannot be written. -/
  | refused (message : String)
  /-- Anything else. -/
  | broken (message : String)
deriving DecidableEq, Repr

def Fault.message : Fault → String
  | refused m => m
  | broken m => m

/-- A painter is known by the stages at which it fails. -/
abbrev Painter := Drawing → Stage → Option Fault

structure Destination where
  path : String
  temporary : Bool
deriving DecidableEq, Repr

/-- What is in the file of a drawing, as far as the painter has put it there. -/
inductive ImageFile where
  /-- Nothing has been done to the file. -/
  | untouched
  /-- There is a temporary file without an image. -/
  | blank
  /-- The file holds the image. -/
  | image
deriving DecidableEq, Repr

/-- How painting ends: with an image, with a fault that is reported, or with one that is not
caught. -/
inductive PaintEnd where
  | saved
  | failed (fault : Fault)
  | escaped (fault : Fault)
deriving DecidableEq, Repr

/-- The end of painting, and the file that it leaves. -/
structure Painted where
  ending : PaintEnd
  file : ImageFile
deriving DecidableEq, Repr

namespace Drawing

/-- The stages that are watched: a fault in one of them is reported. -/
def watchedStages (d : Drawing) : List Stage :=
  .axes :: (d.arrows.labels.map .arrows ++ [.legend, .save])

/-- Paints a drawing. Temporary files are removed when painting fails at a stage that is watched;
making the figure is not watched. -/
def paint (d : Drawing) (painter : Painter) (destination : Destination) : Painted :=
  let before := if destination.temporary then ImageFile.blank else .untouched
  -- the temporary file is there before the painter begins
  match painter d .figure with
  | some fault => ⟨.escaped fault, before⟩
  | none =>
    match d.watchedStages.findSome? (painter d) with
    | some fault => ⟨.failed fault, .untouched⟩
    | none => ⟨.saved, .image⟩

end Drawing

/-! ## Types of image files -/

/-- The types of files that an image can be written to. -/
def fileTypes : List String :=
  ["eps", "jpeg", "jpg", "pdf", "pgf", "png", "ps", "raw", "rgba", "svg", "svgz", "tif", "tiff",
    "webp"]

def fileName (path : List Char) : List Char := (path.reverse.takeWhile (· != '/')).reverse

/-- The type that a path asks for: what comes after the last dot of its last part. Dots at the
beginning of that part do not count. -/
def fileType? (path : String) : Option String :=
  let name := (fileName path.toList).dropWhile (· == '.')
  let type := (name.reverse.takeWhile (· != '.')).reverse
  if type.isEmpty || type.length = name.length then none
  else some (String.ofList (type.map Char.toLower))

def unknownType (type : String) : Fault :=
  .refused ("Format " ++ quoted type ++ " is not supported (supported formats: " ++
    ", ".intercalate fileTypes ++ ")")

/-- Why an image cannot be written to a file of the type that its path asks for, if so. -/
def fileTypeFault? (path : String) : Option Fault :=
  ((fileType? path).filter (fun type => !fileTypes.contains type)).map unknownType

end LinearCalc
