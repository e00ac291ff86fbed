import LinearCalc.Grid

set_option autoImplicit false

/-! # Pictures of matrices

A matrix drawn with characters: its columns side by side, its rows one below the other with an
empty line between them, and brackets on both sides. A picture too wide for the screen is cut
into strips that are drawn below one another.
-/

namespace LinearCalc

/-! ## Columns and rows -/

def widest (texts : List (List Char)) : Nat := (texts.map List.length).foldl max 0

/-- A text in the middle of `width` columns; of an odd rest more is put on the right. -/
def centre (width : Nat) (text : List Char) : List Char :=
  let free := width - text.length
  let left := free / 2
  List.replicate left ' ' ++ text ++ List.replicate (free - left) ' '

def columnGap : List Char := [' ', ' ']

/-- The line of one row, when the widths of the columns are given. -/
def rowLine (widths : List Nat) (row : List (List Char)) : List Char :=
  columnGap.intercalate (List.zipWith centre widths row)

def bodyLines (cells : List (List (List Char))) : List (List Char) :=
  let widths := (transpose cells).map widest
  let lines := cells.map (rowLine widths)
  let blank := List.replicate (widest lines) ' '
  lines.intersperse blank

/-! ## Brackets -/

/-- The pieces of the brackets on the two sides: in a single line, and in the first, a middle and
the last of several lines. -/
structure BracketStyle where
  single : Char × Char
  first : Char × Char
  middle : Char × Char
  last : Char × Char

def squareBrackets : BracketStyle := ⟨('[', ']'), ('⎡', '⎤'), ('⎢', '⎥'), ('⎣', '⎦')⟩

def enclose (brackets : Char × Char) (line : List Char) : List Char :=
  brackets.1 :: (line ++ [brackets.2])

def encloseRest (style : BracketStyle) : List (List Char) → List (List Char)
  | [] => []
  | [line] => [enclose style.last line]
  | line :: more => enclose style.middle line :: encloseRest style more

def encloseAll (style : BracketStyle) : List (List Char) → List (List Char)
  | [] => []
  | [line] => [enclose style.single line]
  | line :: more => enclose style.first line :: encloseRest style more

/-! ## Strips -/

def screenColumns : Nat := 80

/-- What ends a strip that goes on below. -/
def strip : Char := '↪'

/-- Cuts a line into pieces of `width` characters; the last one may be shorter. -/
def cutEvery (width : Nat) (line : List Char) : List (List Char) :=
  if _h : line.length ≤ width ∨ width = 0 then [line]
  else line.take width :: cutEvery width (line.drop width)
termination_by line.length
decreasing_by
  simp only [List.length_drop]
  omega

/-- Marks the pieces after the first: all go on from above, and all but the last go on below. -/
def markStrips : List (List Char) → List (List Char)
  | [] => []
  | [piece] => [strip :: ' ' :: piece]
  | piece :: more => (strip :: ' ' :: (piece ++ [' ', strip])) :: markStrips more

/-- The strips of a line that is wider than the screen. Two columns are kept for the mark at the
end, and two for the mark at the start of every strip but the first. -/
def strips (line : List Char) : List (List Char) :=
  let width := screenColumns - 2
  (line.take width ++ [' ', strip]) :: markStrips (cutEvery (width - 2) (line.drop width))

def joinLines (lines : List (List Char)) : List Char := ['\n'].intercalate lines

/-- A picture as text, cut into strips if it is wider than the screen. -/
def pictureText (lines : List (List Char)) : String :=
  if widest lines ≤ screenColumns then String.ofList (joinLines lines)
  else
    let groups := transpose (lines.map strips)
    String.ofList (['\n', '\n'].intercalate (groups.map joinLines))

/-- The picture of a matrix whose cells are given as text. One without rows is drawn as one that
has an empty row. -/
def matrixPicture (cells : List (List String)) : String :=
  let rows := if cells.isEmpty then [[]] else cells
  pictureText (encloseAll squareBrackets (bodyLines (rows.map (fun row => row.map String.toList))))

end LinearCalc
