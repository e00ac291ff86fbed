import LinearCalc.Text.Characters

set_option autoImplicit false

/-! # Numerals

Reading numbers. In an expression a number is typed in plain form: digits with at most one point
among them. Its value is the floating-point number nearest to the decimal, an even one of two
equally near, and infinite when no finite number is near enough; integers are turned into
floating-point numbers in the same way, except that none of them is infinite.

Numbers that are not part of an expression, which are arguments and numbers given as text, are
numerals. Their digits may be of any script and may have single underscores between them; blanks
around a numeral do not matter. A decimal may have a sign, a point and an exponent, and may be
infinite or no number.
-/

namespace LinearCalc

/-! ## Plain numbers -/

/-- The number that a row of decimal digits stands for. -/
def digitsValue (digits : List Char) : Nat :=
  digits.foldl (fun n c => 10 * n + (c.toNat - '0'.toNat)) 0

/-- The decimal `m · 10^(-places)`, to the nearest floating-point number. -/
def decimalValue (m places : Nat) : Float := Float.ofScientific m true places

/-- The value of digits with at most one point among them. -/
def plainValue (digits : List Char) : Float :=
  let whole := digits.takeWhile Char.isDigit
  let places := (digits.dropWhile Char.isDigit).drop 1
  decimalValue (digitsValue (whole ++ places)) places.length

def finite? (x : Float) : Option Float := if x.isFinite then some x else none

/-- The floating-point number nearest to an integer, unless it is too large for one. -/
def nearestFloat? (n : Int) : Option Float := finite? (Float.ofInt n)

/-- The floating-point number nearest to the decimal `n · 10^(-places)`, unless it is too large
for one. -/
def nearestDecimal? (n : Int) (places : Nat) : Option Float :=
  let x := decimalValue n.natAbs places
  finite? (if n < 0 then -x else x)

/-! ## Characters of numerals -/

def isNumeralBlank (c : Char) : Bool := isWhiteSpace c

/-- Writes a digit of any script as an ordinary one. -/
def plainDigit (c : Char) : Char :=
  if c.toNat < 128 then c
  else
    match decimalDigit? c with
    | some d => Char.ofNat ('0'.toNat + d)
    | none => c

/-- Takes out underscores; they must stand between digits. -/
def dropUnderscores : List Char → Option (List Char)
  | [] => some []
  | '_' :: _ => none
  | c :: '_' :: d :: more =>
    if c.isDigit && d.isDigit then (dropUnderscores (d :: more)).map (c :: ·) else none
  | _ :: '_' :: [] => none
  | c :: more => (dropUnderscores more).map (c :: ·)

/-- The characters of a numeral, without blanks around them and underscores in them. -/
def numeralChars? (text : String) : Option (List Char) :=
  dropUnderscores ((trimChars isNumeralBlank text.toList).map plainDigit)

/-- Takes a sign from the front; the result tells whether it is a minus. -/
def splitSign : List Char → Bool × List Char
  | '-' :: more => (true, more)
  | '+' :: more => (false, more)
  | chars => (false, chars)

/-! ## Integers -/

/-- The most digits of an integer that is read from text. -/
def maxIntegerDigits : Nat := 4300

def readInteger? (text : String) : Option Int := do
  let (negative, digits) := splitSign (← numeralChars? text)
  if digits.isEmpty || !digits.all Char.isDigit || digits.length > maxIntegerDigits then none
  else
    let n : Int := digitsValue digits
    some (if negative then -n else n)

/-! ## Decimals -/

/-- Reads an exponent; no exponent counts as zero. -/
def readExponent? : List Char → Option Int
  | [] => some 0
  | c :: more =>
    if c = 'e' ∨ c = 'E' then
      let (negative, digits) := splitSign more
      if digits.isEmpty || !digits.all Char.isDigit then none
      else
        let n : Int := digitsValue digits
        some (if negative then -n else n)
    else
      none

/-- The number `m · 10^e`, to the nearest floating-point number. -/
def scaledValue (m : Nat) (e : Int) : Float :=
  if e < 0 then Float.ofScientific m true e.natAbs else Float.ofScientific m false e.natAbs

/-- Reads digits with at most one point among them and at least one digit, and then an exponent. -/
def readDigits? (chars : List Char) : Option Float := do
  let whole := chars.takeWhile Char.isDigit
  let rest := chars.dropWhile Char.isDigit
  let (places, rest) :=
    match rest with
    | '.' :: more => (more.takeWhile Char.isDigit, more.dropWhile Char.isDigit)
    | _ => ([], rest)
  if (whole ++ places).isEmpty then none
  else
    let e ← readExponent? rest
    some (scaledValue (digitsValue (whole ++ places)) (e - places.length))

def infinity : Float := 1.0 / 0.0

def notANumber : Float := 0.0 / 0.0

/-- Reads one of the words for a number that is not finite, in letters of either case. -/
def readWord? (chars : List Char) : Option Float :=
  match String.ofList (chars.map Char.toLower) with
  | "inf" => some infinity
  | "infinity" => some infinity
  | "nan" => some notANumber
  | _ => none

def readDecimal? (text : String) : Option Float := do
  let (negative, chars) := splitSign (← numeralChars? text)
  let value ← (readWord? chars).or (readDigits? chars)
  some (if negative then -value else value)

end LinearCalc
