import LinearCalc.Number.Typeset
import LinearCalc.Simplify

set_option autoImplicit false

/-! # Entries

A single number as it stands in a matrix, in plain text and in LaTeX. An element that is empty, or
that is itself a matrix, stands there as a box.
-/

namespace LinearCalc

/-- An element of a matrix that is to be shown. -/
inductive Entry where
  | box
  | number (v : Float)

/-- What is shown of an element of a matrix. -/
def Entry.of : Expr Float → Entry
  | .placeholder _ => .box
  | e =>
    match e.value with
    | .scalar v => .number v
    | .matrix _ => .box

/-- A number that is finite and not whole. Only the text of such a number depends on how many
digits it may have. -/
def hasFraction (v : Float) : Bool := v.isFinite && (Binary64.ofFloat v).toInt?.isNone

def Entry.hasFraction : Entry → Bool
  | box => false
  | number v => LinearCalc.hasFraction v

def boxText : String := "□"

namespace Typeset

def sign (negative : Bool) : String := if negative then "-" else ""

def text : Typeset → String
  | nan => "nan"
  | infinite negative => sign negative ++ "∞"
  | whole n => toString n
  | decimal negative style d => style.write negative d
  | magnitude negative e =>
    sign negative ++ "0.e" ++ (if e < 0 then "-" else "+") ++ toString e.natAbs

def latex : Typeset → String
  | nan => "\\text\x7bNaN\x7d"
  | infinite negative => sign negative ++ "\\infty"
  | whole n => toString n
  | decimal negative style d =>
    if style.isPositional d.exponent then style.write negative d
    else
      sign negative ++ String.ofList (style.mantissa d) ++ " \\cdot 10^\x7b" ++
        toString d.exponent ++ "\x7d"
  | magnitude negative e => sign negative ++ "10^\x7b" ++ toString e ++ "\x7d"

end Typeset

namespace Entry

/-- An entry in plain text, where a number with few bits shows no digit. -/
def text (precision : Int) : Entry → String
  | box => boxText
  | number v => (Typeset.of true precision v).text

def latex (precision : Int) : Entry → String
  | box => boxText
  | number v => (Typeset.of false precision v).latex

end Entry

end LinearCalc
