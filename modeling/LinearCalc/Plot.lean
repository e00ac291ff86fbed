import LinearCalc.Evaluate
import LinearCalc.Plot.Painter

set_option autoImplicit false

/-! # Plotting

From labelled texts to a drawing. One text that is rejected is enough to reject them all. Of the
others those are drawn whose values stand for vectors of the plane; the rest is skipped. A matrix of
one or two rows stands for vectors of the plane, one for each column: the first row holds their `x`,
and the second their `y`. Without a second row all `y` are zero.
-/

namespace LinearCalc

/-! ## Vectors of the plane -/

/-- The vectors that a grid of one or two rows stands for. -/
def Grid.vectors? {α : Type} [Zero α] : Grid α → Option (List (Position α))
  | [xs] => some (xs.map (fun x => ⟨x, 0⟩))
  | [xs, ys] => some (List.zipWith Position.mk xs ys)
  | _ => none

/-- The vectors that an expression stands for, if its value is a matrix of numbers with one or
two rows. -/
def Expr.vectors? {α : Type} [Scalar α] (e : Expr α) : Option (List (Position α)) :=
  e.simplify.numbers?.bind Grid.vectors?

/-! ## Plots -/

/-- Parses labelled texts within the limits. The first text that is rejected stops it. -/
def parseAll : Labelled String → Except (String × Rejection) (Labelled (Expr Float))
  | [] => .ok []
  | (label, text) :: more =>
    match parseWithin text with
    | .error rejection => .error (label, rejection)
    | .ok (tree, _) => (parseAll more).map ((label, tree) :: ·)

namespace Labelled

/-- The entries that stand for vectors of the plane. -/
def drawable (entries : Labelled (Expr Float)) : Labelled (List (Position Float)) :=
  entries.filterMap (fun entry => entry.2.vectors?.map (fun vectors => (entry.1, vectors)))

/-- The labels of the entries that do not stand for vectors of the plane. -/
def skipped (entries : Labelled (Expr Float)) : List String :=
  labels (entries.filter (fun entry => entry.2.vectors?.isNone))

section Entries

variable {label : String} {e : Expr Float} {vectors : List (Position Float)}
  (entries : Labelled (Expr Float))

@[simp] theorem drawable_cons_of_some (h : e.vectors? = some vectors) :
    drawable ((label, e) :: entries) = (label, vectors) :: drawable entries := by
  simp [drawable, h]

@[simp] theorem drawable_cons_of_none (h : e.vectors? = none) :
    drawable ((label, e) :: entries) = drawable entries := by
  simp [drawable, h]

@[simp] theorem skipped_cons_of_some (h : e.vectors? = some vectors) :
    skipped ((label, e) :: entries) = skipped entries := by
  simp [skipped, h]

@[simp] theorem skipped_cons_of_none (h : e.vectors? = none) :
    skipped ((label, e) :: entries) = label :: skipped entries := by
  simp [skipped, h]

end Entries

end Labelled

structure PlotRequest where
  texts : Labelled String
  view : Viewport Float := defaultViewport
  canvas : Canvas Pixels := defaultCanvas
  destination : Destination

/-- What comes of a plot: why there is none, or how painting it ended. -/
inductive Plotted where
  | rejected (label : String) (rejection : Rejection)
  | empty (skipped : List String)
  | painted (drawing : Drawing) (skipped : List String) (result : Painted)

def nothingToPlot : String := "Nothing to plot: no 1xn or 2xn numeric matrices"

namespace PlotRequest

def plot (r : PlotRequest) (painter : Painter) : Plotted :=
  match parseAll r.texts with
  | .error (label, rejection) => .rejected label rejection
  | .ok entries =>
    if entries.drawable.isEmpty then .empty entries.skipped
    else
      let drawing : Drawing := ⟨r.view, r.canvas, entries.drawable⟩
      .painted drawing entries.skipped (drawing.paint painter r.destination)

/-- The usual painter comes to an end with what a plot is to show, if there is anything. -/
def ends (r : PlotRequest) : Bool :=
  match parseAll r.texts with
  | .error _ => true
  | .ok entries =>
    entries.drawable.isEmpty || (Drawing.mk r.view r.canvas entries.drawable).ends

end PlotRequest

def Fault.outcome : Fault → Outcome
  | refused message => .failure ("Plotting error: " ++ message)
  | broken _ => .failure "Plotting failed unexpectedly"

/-- The outcome of painting, unless it ended with a fault that is not caught. -/
def PaintEnd.outcome (destination : Destination) : PaintEnd → Except Fault Outcome
  | saved => .ok { ok := true, result := some destination.path }
  | failed fault => .ok fault.outcome
  | escaped fault => .error fault

namespace Plotted

/-- The outcome of a plot, unless it ended with a fault that is not caught. -/
def outcome (destination : Destination) : Plotted → Except Fault Outcome
  | rejected label rejection => .ok (.failure (label ++ ": " ++ rejection.message))
  | empty _ => .ok (.failure nothingToPlot)
  | painted _ _ result => result.ending.outcome destination

def file : Plotted → ImageFile
  | painted _ _ result => result.file
  | _ => .untouched

def skipped : Plotted → List String
  | rejected _ _ => []
  | empty labels => labels
  | painted _ labels _ => labels

end Plotted

end LinearCalc
