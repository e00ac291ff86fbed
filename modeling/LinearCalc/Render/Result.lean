import LinearCalc.Number.Formatted
import LinearCalc.Render.Entry
import LinearCalc.Render.Picture

set_option autoImplicit false

/-! # Results

A computed value for a reader: a number or the picture of a matrix in plain text, and the same in
LaTeX. Anything else is shown as what is not a number. Matrices that have been computed are
rectangular; any other is checked before it is shown.
-/

namespace LinearCalc

/-- The widest matrix that LaTeX sets without a column specification. -/
def maxPlainColumns : Nat := 10

def latexRows (cells : List (List String)) : String :=
  "\\\\".intercalate (cells.map (fun row => " & ".intercalate row))

/-- The environment that surrounds the rows of a matrix with so many columns. -/
def matrixEnvironment (columns : Nat) : String × String :=
  if columns ≤ maxPlainColumns then ("\\begin\x7bmatrix\x7d", "\\end\x7bmatrix\x7d")
  else
    ("\\begin\x7barray\x7d\x7b" ++ String.ofList (List.replicate columns 'c') ++ "\x7d",
      "\\end\x7barray\x7d")

def latexMatrix (cells : List (List String)) : String :=
  let (opening, closing) := matrixEnvironment (shape cells).2
  "\\left[" ++ opening ++ latexRows cells ++ closing ++ "\\right]"

namespace Expr

/-- There is a number with a fraction in a result. -/
def hasFraction : Expr Float → Bool
  | number v _ => LinearCalc.hasFraction v
  | matrix rows _ => rows.any (fun row => row.any (fun e => (Entry.of e).hasFraction))
  | _ => false

def resultText (precision : Int) : Expr Float → String
  | number v _ => numberText precision v
  | matrix rows _ =>
    matrixPicture (rows.map (fun row => row.map (fun e => (Entry.of e).text precision)))
  | _ => numberText precision Scalar.nan

def resultLatex (precision : Int) : Expr Float → String
  | number v _ => (Entry.number v).latex precision
  | matrix rows _ =>
    latexMatrix (rows.map (fun row => row.map (fun e => (Entry.of e).latex precision)))
  | _ => (Entry.number Scalar.nan).latex precision

end Expr

/-! ## Matrices that are not rectangular -/

/-- Why the rows of a matrix cannot be shown. -/
inductive RowFault where
  /-- A row is empty. -/
  | empty
  /-- A row is not as long as the one before it. -/
  | unequal
deriving DecidableEq, Repr

def RowFault.message : RowFault → String
  | empty => "integer division or modulo by zero"
  | unequal => "mismatched dimensions"

/-- The first fault of some rows that come after a row of length `before`. -/
def rowFaultFrom? {β : Type} (before : Option Nat) : List (List β) → Option RowFault
  | [] => none
  | row :: rows =>
    if row.isEmpty then some .empty
    else if before.any (· != row.length) then some .unequal
    else rowFaultFrom? (some row.length) rows

/-- The first fault of the rows of a matrix. A single row may be empty. -/
def rowFault? {β : Type} (rows : List (List β)) : Option RowFault :=
  if rows.length = 1 then none else rowFaultFrom? none rows

structure Shown where
  text : String
  latex : String
deriving DecidableEq, Repr

namespace Expr

/-- The first fault of an expression that is to be shown as a result. -/
def rowFault? : Expr Float → Option RowFault
  | matrix rows _ => LinearCalc.rowFault? rows
  | _ => none

def show? (precision : Int) (e : Expr Float) : Except RowFault Shown :=
  match e.rowFault? with
  | some fault => .error fault
  | none => .ok ⟨e.resultText precision, e.resultLatex precision⟩

end Expr

end LinearCalc
