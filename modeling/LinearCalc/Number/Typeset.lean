import LinearCalc.Number.Decimal

set_option autoImplicit false

/-! # Typeset numbers

How a number looks in a matrix or a formula. Whole numbers are written with all their digits. Any
other number is first rounded to as many bits as the precision needs, and then written with as
many digits as those bits carry; the last digit is rounded half up. Up to one step past its own
digits a number is written positionally, and with a bare exponent beyond.
-/

namespace LinearCalc

/-- Bits to a decimal digit, in units of `10^-16`. -/
def bitsPerDigit : Nat := 33219280948873626

def bitsUnit : Nat := tenPow 16

/-- The bits that are kept for `precision` digits: enough for one digit more, and at least one. -/
def keptBits (precision : Int) : Nat :=
  max 1 (roundDiv ((precision + 1).toNat * bitsPerDigit) bitsUnit)

/-- The digits that `bits` bits carry, one being held back, and at least one. -/
def carriedDigits (bits : Nat) : Nat :=
  max 1 (roundDiv (bits * bitsUnit) bitsPerDigit - 1)

/-- Where a number may be written with no digit at all, this few bits carry none. -/
def fewBits : Nat := 5

def bitLength (n : Nat) : Nat := if n = 0 then 0 else n.log2 + 1

/-- An odd natural number times a power of two. -/
structure Dyadic where
  m : Nat
  q : Int
deriving DecidableEq, Repr

/-- Moves the factors two of `m` into the exponent, looking for at most `fuel` of them. -/
def Dyadic.normalize : Nat → Dyadic → Dyadic
  | 0, d => d
  | fuel + 1, d => if d.m ≠ 0 ∧ d.m % 2 = 0 then normalize fuel ⟨d.m / 2, d.q + 1⟩ else d

/-- Rounds `m · 2^q` to `bits` bits, ties to even. -/
def Dyadic.round (bits m : Nat) (q : Int) : Dyadic :=
  let surplus := bitLength m - bits
  normalize (bitLength m) ⟨roundDiv m (twoPow surplus), q + surplus⟩

/-- The decimal digits of a number, as many as `digits` digits and the rounding of the last one
need, together with how many of them stand after the point. -/
def Dyadic.expand (digits : Nat) (d : Dyadic) : List Char × Nat :=
  let bits := (digits + 3) * bitsPerDigit / bitsUnit + 10
  let fractionBits := ((bits : Int) - d.q - (bitLength d.m : Int)).toNat
  let places := (2 * fractionBits * bitsUnit + bitsPerDigit) / (2 * bitsPerDigit)
  let r := Ratio.ofScaled d.m d.q
  (natDigits (r.num * tenPow places / r.den), places)

def roundsUp (c : Char) : Bool := decide ('5' ≤ c)

/-- Adds one to the last of some digits, carrying; `none` when all were nines. -/
def increment : List Char → Option (List Char)
  | [] => none
  | c :: more =>
    match increment more with
    | some more => some (c :: more)
    | none =>
      if c = '9' then none
      else some (Char.ofNat (c.toNat + 1) :: more.map (fun _ => '0'))

/-- The first `count` digits, the last one rounded half up. -/
def Decimal.cut (count : Nat) (digits : List Char) (exponent : Int) : Decimal :=
  let kept := digits.take count
  if (digits.drop count).head?.any roundsUp then
    match increment kept with
    | some kept => ⟨kept, exponent⟩
    | none => ⟨'1' :: (kept.drop 1).map (fun _ => '0'), exponent + 1⟩
  else
    ⟨kept, exponent⟩

/-- More digits than any number has. -/
def typesetDigits : Nat := 1100

/-- A number is written positionally when its exponent lies between about a third of the digits
below the point and all the digits above it. -/
def typesetStyle (digits : Nat) : DecimalStyle :=
  ⟨min (-((digits / 3 : Nat) : Int)) (-5) + 1, digits, true, true, 1⟩

/-- A typeset number, before it is written: a word for what is no finite number, a whole number,
a number with digits, or one of which only the order of magnitude is left. -/
inductive Typeset where
  | nan
  | infinite (negative : Bool)
  | whole (n : Int)
  | decimal (negative : Bool) (style : DecimalStyle) (d : Decimal)
  | magnitude (negative : Bool) (exponent : Int)

/-- Prepares a number for being typeset. `bare` allows few bits to carry no digit. -/
def Typeset.of (bare : Bool) (precision : Int) (x : Float) : Typeset :=
  match Binary64.ofFloat x with
  | .nan => .nan
  | .infinite negative => .infinite negative
  | .finite negative m q =>
    match (Binary64.finite negative m q).toInt? with
    | some n => .whole n
    | none =>
      -- first to the bits of the precision, then to the digits that these bits carry
      let bits := keptBits precision
      let d := Dyadic.round bits m q
      let count := carriedDigits bits
      if bare ∧ bits < fewBits then
        let (digits, places) := d.expand 0
        let up := if digits.head?.any roundsUp then 1 else 0
        .magnitude negative ((digits.length : Int) - places - 1 + up)
      else
        let (digits, places) := d.expand (min count typesetDigits)
        .decimal negative (typesetStyle count)
          (Decimal.cut count digits ((digits.length : Int) - places - 1)).trim

end LinearCalc
