set_option autoImplicit false

/-! # Characters

Classes of characters, and what is done with texts by them: which characters are blanks and are
taken from the ends of a text, which are digits of some script (Unicode 14, category Nd), and line
feeds, which end the lines of a text and stand nowhere else in them.
-/

namespace LinearCalc

/-! ## Blanks -/

/-- The information separators `U+001C` to `U+001F`. -/
def isInformationSeparator (c : Char) : Bool :=
  decide (0x1C ≤ c.toNat) && decide (c.toNat ≤ 0x1F)

/-- The characters with the property White_Space. -/
def isWhiteSpace (c : Char) : Bool :=
  (decide (0x09 ≤ c.toNat) && decide (c.toNat ≤ 0x0D)) ||
  (decide (0x2000 ≤ c.toNat) && decide (c.toNat ≤ 0x200A)) ||
  [0x20, 0x85, 0xA0, 0x1680, 0x2028, 0x2029, 0x202F, 0x205F, 0x3000].contains c.toNat

def isBlank (c : Char) : Bool := isWhiteSpace c || isInformationSeparator c

/-- Takes from both ends of a text the characters of a class. -/
def trimChars (p : Char → Bool) (text : List Char) : List Char :=
  ((text.dropWhile p).reverse.dropWhile p).reverse

def trimBlanks (text : String) : String := String.ofList (trimChars isBlank text.toList)

/-! ## Decimal digits -/

/-- The code points of the zeros. -/
def zeroDigits : List Nat := [
  0x0030, 0x0660, 0x06F0, 0x07C0, 0x0966, 0x09E6, 0x0A66, 0x0AE6, 0x0B66, 0x0BE6, 0x0C66,
  0x0CE6, 0x0D66, 0x0DE6, 0x0E50, 0x0ED0, 0x0F20, 0x1040, 0x1090, 0x17E0, 0x1810, 0x1946,
  0x19D0, 0x1A80, 0x1A90, 0x1B50, 0x1BB0, 0x1C40, 0x1C50, 0xA620, 0xA8D0, 0xA900, 0xA9D0,
  0xA9F0, 0xAA50, 0xABF0, 0xFF10, 0x104A0, 0x10D30, 0x11066, 0x110F0, 0x11136, 0x111D0,
  0x112F0, 0x11450, 0x114D0, 0x11650, 0x116C0, 0x11730, 0x118E0, 0x11950, 0x11C50, 0x11D50,
  0x11DA0, 0x16A60, 0x16AC0, 0x16B50, 0x1D7CE, 0x1D7D8, 0x1D7E2, 0x1D7EC, 0x1D7F6, 0x1E140,
  0x1E2F0, 0x1E950, 0x1FBF0]

def decimalDigit? (c : Char) : Option Nat :=
  (zeroDigits.find? (fun z => decide (z ≤ c.toNat) && decide (c.toNat < z + 10))).map
    (fun z => c.toNat - z)

/-! ## Lines -/

def textLines (text : String) : List String := (text.toList.splitOn '\n').map String.ofList

/-- A text in which each of the given lines is ended by a line feed. -/
def printLines (lines : List String) : String := String.join (lines.map (· ++ "\n"))

/-- The lines of a text; a line feed at its end does not begin another line. -/
def inputLines (text : String) : List String :=
  let lines := textLines text
  if lines.getLast? = some "" then lines.dropLast else lines

end LinearCalc
