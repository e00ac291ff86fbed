import LinearCalc.Legend.Formula

set_option autoImplicit false

/-! # Legends

The labels of a drawing are listed in its legend. A line of a label may hold formulas between
dollar signs; a dollar sign after a backslash stands for itself. All other lines are shown as they
are. A label with a formula that cannot be read is a reason for a complaint.
-/

namespace LinearCalc.Legend

/-- A label is shown unless it is empty or begins with an underscore. -/
def isShown (label : List Char) : Bool := !label.isEmpty && label.head? != some '_'

/-- How many dollar signs stand for themselves. -/
def escapedDollars : List Char → Nat
  | '\\' :: '$' :: more => escapedDollars more + 1
  | _ :: more => escapedDollars more
  | [] => 0

def tabStop : Nat := 8

/-- Fills up with blanks from tabs to the next stop. -/
def expandTabs (column : Nat) : List Char → List Char
  | [] => []
  | '\t' :: more => List.replicate (tabStop - column % tabStop) ' ' ++ expandTabs 0 more
  | '\r' :: more => '\r' :: expandTabs 0 more
  | c :: more => c :: expandTabs (column + 1) more

/-- A line holds formulas if there are dollar signs around them. -/
def holdsFormulas (line : List Char) : Bool :=
  let dollars := line.count '$' - escapedDollars line
  dollars != 0 && dollars % 2 == 0

/-- A part of a line that is being read. -/
inductive LinePart where
  | text
  /-- A formula: what begins with its first dollar sign, and what has been read of it, the last
  character first. -/
  | formula (start read : List Char)

/-- The complaint that at a dollar sign there is no formula. -/
def noFormula (line start : List Char) : Complaint :=
  ⟨.absent, expected "end of text", line, line.length - start.length⟩

/-- The first complaint about the rest of a line, of which a part is being read. -/
def restComplaint? (line : List Char) : LinePart → List Char → Option Complaint
  | .text, [] => none
  | .text, '\\' :: '$' :: more => restComplaint? line .text more
  | .text, '$' :: more => restComplaint? line (.formula ('$' :: more) []) more
  | .text, _ :: more => restComplaint? line .text more
  | .formula start _, [] => some (noFormula line start)
  | .formula start read, '\\' :: c :: more =>
    restComplaint? line (.formula start (c :: '\\' :: read)) more
  | .formula start read, '$' :: more =>
    match formulaFault? read.reverse with
    | none => restComplaint? line .text more
    | some .unreadable => some (noFormula line start)
    | some (.complaint c) => some c
  | .formula start read, c :: more => restComplaint? line (.formula start (c :: read)) more

def lineComplaint? (line : List Char) : Option Complaint :=
  let line := expandTabs 0 line
  if holdsFormulas line then restComplaint? line .text line else none

def labelComplaint? (label : List Char) : Option Complaint :=
  (label.splitOn '\n').findSome? lineComplaint?

def complaint? (labels : List String) : Option Complaint :=
  ((labels.map String.toList).filter isShown).findSome? labelComplaint?

end LinearCalc.Legend
