import LinearCalc.Number.Decimal

set_option autoImplicit false

/-! # Shortest text

The fewest decimal digits from which a floating-point number can be read back, and of those the
ones nearest to it. The decimals that read back as `m · 2^q` fill an interval around it, half way
to the neighbours on either side; its ends belong to it when `m` is even. For one digit, then two,
and so on up to seventeen, the two decimals next to the number are tried.
-/

namespace LinearCalc

/-- The decimals that read back as `m · 2^q`, in quarters of `2^q`: the interval from `low` to
`high` around `4 m`, whose ends count if `closed`. -/
structure RoundingInterval where
  low : Nat
  middle : Nat
  high : Nat
  closed : Bool
  q : Int

namespace RoundingInterval

/-- The rounding interval of `m · 2^q`. Below a power of two the numbers lie twice as dense,
except at the least exponent. -/
def of (m : Nat) (q : Int) : RoundingInterval :=
  let gap := if m = twoPow 52 ∧ q ≠ -1074 then 1 else 2
  ⟨4 * m - gap, 4 * m, 4 * m + 2, m % 2 = 0, q - 2⟩

/-- Compares `n · 10^k` with `bound · 2^q`. -/
def compareTo (i : RoundingInterval) (n : Nat) (k : Int) (bound : Nat) : Ordering :=
  compare (n * tenPow k.toNat * twoPow (-i.q).toNat) (bound * twoPow i.q.toNat * tenPow (-k).toNat)

/-- The decimal `n · 10^k` reads back as the number. -/
def holds (i : RoundingInterval) (n : Nat) (k : Int) : Bool :=
  match i.compareTo n k i.low, i.compareTo n k i.high with
  | .gt, .lt => true
  | .eq, _ => i.closed
  | _, .eq => i.closed
  | _, _ => false

end RoundingInterval

/-- The decimal with `p` digits that is nearest to the number among those that read back as it, if
there is one. -/
def Decimal.ofInterval? (p : Nat) (e : Int) (i : RoundingInterval) : Option Decimal :=
  let k := e - ((p : Int) - 1)
  let value := (Ratio.ofScaled i.middle i.q).scale10 (-k)
  let below := value.num / value.den
  let above := below + 1
  let nearest := roundDiv value.num value.den
  let written (n : Nat) : Decimal :=
    if n = tenPow p then ⟨natDigits (tenPow (p - 1)), e + 1⟩ else ⟨natDigits n, e⟩
  -- of two decimals that both read back the nearer one is taken
  match i.holds below k, i.holds above k with
  | true, true => some (written nearest)
  | true, false => some (written below)
  | false, true => some (written above)
  | false, false => none

/-- The shortest decimal that reads back as the positive number `m · 2^q`. Seventeen digits are
always enough. -/
def Decimal.shortest (m : Nat) (q : Int) : Decimal :=
  let value := Ratio.ofScaled m q
  let e := value.exponent10
  let i := RoundingInterval.of m q
  (((List.range 17).findSome? (fun p => Decimal.ofInterval? (p + 1) e i)).getD
    (Decimal.round 17 value)).trim

/-- Numbers below `10^16` and from `10^-4` on are written positionally, whole ones with `.0`;
exponents have a sign and at least two digits. -/
def shortestStyle : DecimalStyle := ⟨-4, 16, true, false, 2⟩

def shortestText (x : Float) : String :=
  match Binary64.ofFloat x with
  | .nan => nanText
  | .infinite negative => infinityText negative
  | .finite negative 0 _ => shortestStyle.write negative ⟨['0'], 0⟩
  | .finite negative m q => shortestStyle.write negative (Decimal.shortest m q)

end LinearCalc
