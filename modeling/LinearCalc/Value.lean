import LinearCalc.Grid

set_option autoImplicit false

/-! # Values

What expressions mean, with all places in the text forgotten: a number, or a matrix whose cells
are values again. Operations that make no sense have no value of their own; they give what is not
a number, and so does every operation that meets it.
-/

namespace LinearCalc

/-- The meaning of an expression. -/
inductive Value (α : Type) where
  | scalar (v : α)
  | matrix (rows : List (List (Value α)))

/-- The result of an operation on two values. -/
inductive Computed (α : Type) where
  /-- A number. -/
  | scalar (v : α)
  /-- A matrix of numbers. -/
  | grid (cells : Grid α)
  /-- The left operand as it is. -/
  | unchanged
  /-- The operation does not apply to its operands. -/
  | invalid

namespace Value

variable {α : Type} [Scalar α]

def invalid : Value α := scalar Scalar.nan

/-- The number that a cell is, if it is one. -/
def number? : Value α → Option α
  | scalar v => if Scalar.isNaN v then none else some v
  | matrix _ => none

/-- The numbers of a matrix all of whose cells are numbers. -/
def numbers? : Value α → Option (Grid α)
  | scalar _ => none
  | matrix rows => rows.mapM (fun row => row.mapM number?)

end Value

namespace Computed

variable {α : Type} [Scalar α]

/-- A computed matrix. One cell that is not a number spoils it. -/
def ofGrid (cells : Grid α) : Computed α :=
  if cells.any (fun row => row.any Scalar.isNaN) then invalid else grid cells

/-- The result as a value, when `left` is the left operand. -/
def value (left : Value α) : Computed α → Value α
  | scalar v => .scalar v
  | grid cells => .matrix (cells.map .scalar)
  | unchanged => left
  | invalid => .invalid

end Computed

/-! ## Operations -/

namespace Value

variable {α : Type} [Scalar α]

def bothNumbers? (left right : Value α) : Option (Grid α × Grid α) := do
  some (← left.numbers?, ← right.numbers?)

/-- Sum or difference: of two numbers, or cell by cell of two matrices of one shape. -/
def elementwise (f : α → α → α) (left right : Value α) : Computed α :=
  match left, right with
  | scalar a, scalar b => .scalar (f a b)
  | left, right =>
    match bothNumbers? left right with
    | some (a, b) => if shape a = shape b then .ofGrid (a.zipWith f b) else .invalid
    | none => .invalid

/-- Product: of two numbers, of a number with every cell, or of two matrices that fit. -/
def multiply (left right : Value α) : Computed α :=
  match left, right with
  | scalar a, scalar b => .scalar (a * b)
  -- the factor is on the right of every product, wherever it was typed
  | scalar factor, right =>
    match right.numbers? with
    | some cells => .ofGrid (cells.map (· * factor))
    | none => .invalid
  | left, scalar factor =>
    match left.numbers? with
    | some cells => .ofGrid (cells.map (· * factor))
    | none => .invalid
  | left, right =>
    match bothNumbers? left right with
    | some (a, b) => if (shape a).2 = (shape b).1 then .ofGrid (a.mul b) else .invalid
    | none => .invalid

/-- Quotient: of a number, or of every cell, by a number other than zero. -/
def divide (left right : Value α) : Computed α :=
  match right with
  | matrix _ => .invalid
  | scalar divisor =>
    if Scalar.isZero divisor then .invalid
    else
      match left with
      | scalar a => .scalar (a / divisor)
      | left =>
        match left.numbers? with
        | some cells => .ofGrid (cells.map (· / divisor))
        | none => .invalid

/-- The exponent of a matrix power: the matrix must be square and the number a positive integer. -/
def matrixExponent? (rows : List (List (Value α))) (exponent : α) : Option Nat :=
  if (shape rows).1 = (shape rows).2 then
    match Scalar.toInt? exponent with
    | some (Int.ofNat (n + 1)) => some (n + 1)
    | _ => none
  else none

/-- Power: of a number, or of a square matrix with a positive integer exponent. -/
def power (left right : Value α) : Computed α :=
  match left, right with
  | scalar a, scalar b => .scalar (Scalar.pow a b)
  | matrix rows, scalar b =>
    match matrixExponent? rows b with
    | none => .invalid
    | some n =>
      if n = 1 then .unchanged
      else
        match (matrix rows).numbers? with
        | some cells => .ofGrid (cells.pow n)
        | none => .invalid
  | _, _ => .invalid

/-- Two matrices of numbers that are rows, or columns, of one length. -/
def vectors? (left right : Value α) : Option (Grid α × Grid α) := do
  let (a, b) ← bothNumbers? left right
  if shape a = shape b ∧ ((shape a).1 = 1 ∨ (shape a).2 = 1) then some (a, b) else none

/-- Dot product of two rows or two columns. -/
def dotProduct (left right : Value α) : Computed α :=
  match vectors? left right with
  | some (a, b) =>
    let v := Grid.dot a.flatten b.flatten
    if Scalar.isNaN v then .invalid else .scalar v
  | none => .invalid

/-- Cross product of two rows or two columns of three. -/
def crossProduct (left right : Value α) : Computed α :=
  match vectors? left right with
  | some (a, b) =>
    match Grid.cross? a.flatten b.flatten with
    | some cells => .ofGrid (Grid.arrangeLike a cells)
    | none => .invalid
  | none => .invalid

def transposed : Value α → Value α
  | matrix rows => matrix (transpose rows)
  | scalar _ => .invalid

end Value

def Operator.apply {α : Type} [Scalar α] (op : Operator) (left right : Value α) : Computed α :=
  match op with
  | add => left.elementwise (· + ·) right
  | sub => left.elementwise (· - ·) right
  | mul => left.multiply right
  | div => left.divide right
  | pow => left.power right
  | dot => left.dotProduct right
  | cross => left.crossProduct right

end LinearCalc
