import LinearCalc.Expr
import LinearCalc.Number.Formatted

set_option autoImplicit false

/-! # Formulas

An expression as it was typed, in LaTeX. A formula is a list of pieces: opening and closing
delimiters of three kinds, the sign of a fraction, the box for an empty slot, and text in between
that contains none of these. Only an expression with an unsupported sign has no formula.
-/

namespace LinearCalc

/-- The pairs of delimiters of a formula. -/
inductive Delimiter where
  | brace
  | paren
  | matrix
deriving DecidableEq, Repr

inductive Piece where
  | opening (d : Delimiter)
  | closing (d : Delimiter)
  | fraction
  | box
  | literal (text : String)
deriving DecidableEq, Repr

namespace Delimiter

def openingText : Delimiter → String
  | brace => "\x7b"
  | paren => "\\left("
  | matrix => "\\begin\x7bbmatrix\x7d"

def closingText : Delimiter → String
  | brace => "\x7d"
  | paren => "\\right)"
  | matrix => "\\end\x7bbmatrix\x7d"

end Delimiter

namespace Piece

def text : Piece → String
  | opening d => d.openingText
  | closing d => d.closingText
  | fraction => "\\frac"
  | box => "\\square"
  | literal t => t

def within (d : Delimiter) (pieces : List Piece) : List Piece :=
  opening d :: (pieces ++ [closing d])

end Piece

/-- The sign of an operation between its operands. A quotient and a power are not written with a
sign. -/
def Operator.formulaSign : Operator → String
  | add => "+"
  | sub => "-"
  | mul => "\\cdot"
  | div => "/"
  | pow => "^"
  | dot => "\\cdot"
  | cross => "\\times"

/-- There is no way to write an operation with this sign. -/
structure UnknownSign where
  sign : String
deriving DecidableEq, Repr

namespace Expr

/-- The formula of a symbol; an empty one is a slot. -/
def symbolPieces (text : String) : List Piece :=
  if text = "T" then .literal "\\mathsf" :: Piece.within .brace [.literal "T"]
  else if text = "" then [.box]
  else [.literal text]

/-- The formula of an operation on two operands whose formulas are given. -/
def operationPieces (op : Operator) (left right : List Piece) : List Piece :=
  match op with
  | .div => .fraction :: (Piece.within .brace left ++ Piece.within .brace right)
  | .pow => Piece.within .brace left ++ .literal "^" :: Piece.within .brace right
  | op => left ++ .literal (" " ++ op.formulaSign ++ " ") :: right

mutual

def formula : Expr Float → Except UnknownSign (List Piece)
  | number v _ => .ok [.literal (numberText defaultPrecision v)]
  | symbol text _ => .ok (symbolPieces text)
  | placeholder _ => .ok [.box]
  | paren inner _ => do
    let pieces ← formula inner
    return Piece.within .paren pieces
  | matrix rows _ => do
    let pieces ← formulaRows rows
    return Piece.within .matrix pieces
  | binary op _ left right _ => do
    let leftPieces ← formula left
    let rightPieces ← formula right
    return operationPieces op leftPieces rightPieces
  | unsupported sign _ left right _ => do
    let _ ← formula left
    let _ ← formula right
    throw ⟨sign⟩

/-- The formulas of rows, one below the other. -/
def formulaRows : List (List (Expr Float)) → Except UnknownSign (List Piece)
  | [] => .ok []
  | [row] => formulaRow row
  | row :: rows => do
    let pieces ← formulaRow row
    let more ← formulaRows rows
    return pieces ++ .literal " \\\\ " :: more

/-- The formulas of the elements of a row, side by side. -/
def formulaRow : List (Expr Float) → Except UnknownSign (List Piece)
  | [] => .ok []
  | [e] => formula e
  | e :: row => do
    let pieces ← formula e
    let more ← formulaRow row
    return pieces ++ .literal " & " :: more

end

def latex (e : Expr Float) : Except UnknownSign String :=
  (formula e).map (fun pieces => String.join (pieces.map Piece.text))

end Expr

end LinearCalc
