import LinearCalc.Expr
import LinearCalc.Number.Binary64

set_option autoImplicit false

/-! # Scalars and grids

What a type of numbers needs so that expressions over it can be evaluated: the four operations, a
power, a value for what is not a number, and tests for it, for zero, and for being an integer.
Floating-point numbers are the instance that the calculator uses.

A matrix whose cells are numbers is a grid, a list of rows, and this is the algebra of grids. Its
functions assume that the rows are equally long and that the shapes fit; whoever calls them has
checked it.
-/

namespace LinearCalc

/-! ## Scalars -/

/-- Numbers with which one can calculate. -/
class Scalar (α : Type) extends Add α, Sub α, Mul α, Div α, Zero α where
  /-- One number to the power of another. -/
  pow : α → α → α
  /-- The result of what cannot be computed. -/
  nan : α
  /-- The number is no number. -/
  isNaN : α → Bool
  /-- The number is zero, so that nothing can be divided by it. -/
  isZero : α → Bool
  /-- The integer that the number is, if it is one. -/
  toInt? : α → Option Int

/-- The power of floating-point numbers. Where the exponent asks for an operation of its own, that
operation is the power: the reciprocal, the square root or the square, with their own rounding and
their own signs of zero. Anything to the power of zero is one, and so is one to the power of
anything, even of what is not a number; otherwise what is not a number stays so. -/
def floatPow (base exponent : Float) : Float :=
  if exponent == 0 then 1
  else if exponent == 1 then base
  else if exponent == 2 then base * base
  else if exponent == -1 then 1 / base
  else if exponent == 0.5 then base.sqrt
  else if base == 1 then 1
  else if base.isNaN || exponent.isNaN then 0.0 / 0.0
  else Float.pow base exponent

instance : Scalar Float where
  zero := 0
  pow := floatPow
  nan := 0.0 / 0.0
  isNaN := Float.isNaN
  isZero x := x == 0
  toInt? x := (Binary64.ofFloat x).toInt?

/-! ## Grids -/

/-- The rows of a matrix of numbers. -/
abbrev Grid (α : Type) := List (List α)

def transpose {β : Type} (rows : List (List β)) : List (List β) :=
  rows.foldr (List.zipWith List.cons) (List.replicate (shape rows).2 [])

namespace Grid

variable {α : Type}

def map {β : Type} (f : α → β) (a : Grid α) : Grid β := List.map (List.map f) a

@[simp] theorem map_nil {β : Type} (f : α → β) : map f [] = [] := rfl

@[simp] theorem map_cons {β : Type} (f : α → β) (row : List α) (a : Grid α) :
    map f (row :: a) = row.map f :: map f a := rfl

@[simp] theorem map_map {β γ : Type} (g : β → γ) (f : α → β) (a : Grid α) :
    map g (map f a) = map (fun x => g (f x)) a := by
  simp [map, Function.comp_def]

def zipWith (f : α → α → α) (a b : Grid α) : Grid α := List.zipWith (List.zipWith f) a b

/-- The sum of the products of corresponding elements, from the left and starting at zero. -/
def dot [Add α] [Mul α] [Zero α] (u v : List α) : α := (List.zipWith (· * ·) u v).foldl (· + ·) 0

/-- The product of two grids: every row of the first with every column of the second. -/
def mul [Add α] [Mul α] [Zero α] (a b : Grid α) : Grid α :=
  let columns := transpose b
  List.map (fun row => columns.map (dot row)) a

/-- Multiplies `square`, `square^2`, `square^4`, … into `result`, one for each binary digit of `n`
that is one, the lowest first. -/
def powBits [Add α] [Mul α] [Zero α] (result : Option (Grid α)) (square : Grid α) (n : Nat) :
    Option (Grid α) :=
  if n = 0 then result
  else
    -- the first factor is taken as it is: there is no identity to start from
    let result :=
      if n % 2 = 1 then some ((result.map (fun r => r.mul square)).getD square) else result
    powBits result (square.mul square) (n / 2)
termination_by n
decreasing_by omega

/-- A grid to the power of `n`: by plain multiplication for two and three, and by repeated
squaring otherwise. -/
def pow [Add α] [Mul α] [Zero α] (a : Grid α) (n : Nat) : Grid α :=
  match n with
  | 2 => a.mul a
  | 3 => (a.mul a).mul a
  | n => (powBits none a n).getD a

def cross? [Mul α] [Sub α] : List α → List α → Option (List α)
  | [a0, a1, a2], [b0, b1, b2] =>
    some [a1 * b2 - a2 * b1, a2 * b0 - a0 * b2, a0 * b1 - a1 * b0]
  | _, _ => none

/-- Arranges cells as a row if `model` is a row, and as a column otherwise. -/
def arrangeLike (model : Grid α) (cells : List α) : Grid α :=
  if model.length = 1 then [cells] else List.map (fun c => [c]) cells

end Grid

end LinearCalc
