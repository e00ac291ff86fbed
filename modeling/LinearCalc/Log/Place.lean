import LinearCalc.Log.Argument
import LinearCalc.Number.Formatted

set_option autoImplicit false

/-! # Places for arguments

How an argument is written at its place in a message. The place says how wide it is and how it is
filled up, and a letter says what is written: `s` a text, `r` what would be quoted, `a` the same in
ASCII, `c` a single character, `d` an integer, `x` and `o` one in base sixteen and eight, `f`, `e`
and `g` a number with fixed places, with an exponent, or with so many significant digits.
-/

namespace LinearCalc

structure Place where
  /-- What is too short is filled up on the right. -/
  left : Bool := false
  /-- Numbers are filled up with zeros. -/
  zeros : Bool := false
  /-- Numbers are written so that they show their base, or keep their point. -/
  full : Bool := false
  /-- What stands before a number that is not negative. -/
  plus : List Char := []
  width : Nat := 0
  precision : Option Nat := none

namespace Place

/-! ## Filling up -/

/-- Fills up to the width. Zeros go between what stands before the number and its digits. -/
def fill (p : Place) (zeros : Bool) (before body : List Char) : List Char :=
  let missing := p.width - (before ++ body).length
  if p.left then before ++ body ++ List.replicate missing ' '
  else if zeros then before ++ List.replicate missing '0' ++ body
  else List.replicate missing ' ' ++ before ++ body

def writeChar (p : Place) (c : Char) : List Char := p.fill false [] [c]

/-- Writes a text, of which only so many characters as the precision says. -/
def writeText (p : Place) (text : List Char) : List Char :=
  p.fill false [] (match p.precision with
    | some n => text.take n
    | none => text)

/-- Writes a number whose digits may have a minus before them. -/
def writeNumber (p : Place) (number : List Char) : List Char :=
  match number with
  | '-' :: digits => p.fill p.zeros ['-'] digits
  | digits => p.fill p.zeros p.plus digits

/-- Writes an integer in a base, with at least so many digits as the precision says; `mark` shows
the base. -/
def writeInteger (p : Place) (mark : List Char) (base : Nat) (n : Int) : List Char :=
  let digits := DecimalStyle.padLeft (p.precision.getD 0) (Nat.toDigits base n.natAbs)
  let sign := if n < 0 then ['-'] else p.plus
  p.fill p.zeros (sign ++ if p.full then mark else []) digits

end Place

/-! ## Numbers -/

/-- A number with an exponent and so many digits after the point. -/
def exponentChars (places : Nat) (x : Float) : List Char :=
  let style : DecimalStyle := ⟨0, 0, false, false, 2⟩
  match Binary64.ofFloat x with
  | .nan => nanText.toList
  | .infinite negative => (infinityText negative).toList
  | .finite negative 0 _ => (style.write negative ⟨List.replicate (places + 1) '0', 0⟩).toList
  | .finite negative m q =>
    (style.write negative (Decimal.round (places + 1) (Ratio.ofScaled m q))).toList

/-- A number with exactly `p` significant digits; asking for none gives one. -/
def allSignificantChars (p : Nat) (x : Float) : List Char :=
  let p := max p 1
  let style := significantStyle p
  match Binary64.ofFloat x with
  | .nan => nanText.toList
  | .infinite negative => (infinityText negative).toList
  | .finite negative 0 _ => (style.write negative ⟨List.replicate p '0', 0⟩).toList
  | .finite negative m q =>
    (style.write negative (Decimal.round p (Ratio.ofScaled m q))).toList

/-- A number with a point, even if no digit comes after it. Only what is written with digits gets
one. -/
def withPoint (number : List Char) : List Char :=
  let digits := number.takeWhile (· != 'e')
  if digits.contains '.' || !number.any Char.isDigit then number
  else digits ++ '.' :: number.dropWhile (· != 'e')

namespace Argument

/-- The precision of a place that gives none. -/
def usualPrecision : Nat := 6

/-- The digits of a number in the form that a small letter asks for. -/
def numberForm? (p : Place) (letter : Char) (x : Float) : Option (List Char) :=
  let precision := p.precision.getD usualPrecision
  let complete (number : List Char) := if p.full then withPoint number else number
  match letter with
  | 'f' => some (complete (fixedChars precision x))
  | 'e' => some (complete (exponentChars precision x))
  | 'g' =>
    some (if p.full then withPoint (allSignificantChars precision x)
      else (significantText precision x).toList)
  | _ => none

/-- An argument in the form that a place and a small letter ask for. -/
def plainForm? (p : Place) (letter : Char) (argument : Argument) : Option (List Char) :=
  match letter with
  | 's' => some (p.writeText argument.shown.toList)
  | 'r' => some (p.writeText argument.quotedText.toList)
  | 'a' => some (p.writeText (asciiChars argument.quotedText.toList))
  | 'c' => argument.toChar?.map p.writeChar
  | 'd' | 'i' | 'u' => argument.integerPart?.map (p.writeInteger [] 10)
  | 'x' => argument.toInteger?.map (p.writeInteger ['0', 'x'] 16)
  | 'o' => argument.toInteger?.map (p.writeInteger ['0', 'o'] 8)
  | letter => (argument.toFloat?.bind (numberForm? p letter)).map p.writeNumber

/-- An argument in the form that a place and its letter ask for. Some forms have a capital letter,
which asks for capitals. -/
def formatted? (p : Place) (letter : Char) (argument : Argument) : Option (List Char) :=
  if letter ∈ ['X', 'F', 'E', 'G'] then
    (argument.plainForm? p letter.toLower).map (·.map Char.toUpper)
  else argument.plainForm? p letter

end Argument

end LinearCalc
