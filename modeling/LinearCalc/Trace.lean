import LinearCalc.Simplify

set_option autoImplicit false

/-! # Traces

What there is to remark while an expression is evaluated: matrices that are no matrices, and
operations that do not apply to their operands. The elements of a matrix are evaluated only when
something needs their numbers, and so a trace also keeps, for each element of the resulting
matrix, what there will be to remark about it then.
-/

namespace LinearCalc

/-- Something to remark about an evaluation. -/
inductive Remark where
  /-- The rows of a matrix are empty or of different lengths. -/
  | illFormed (span : Span)
  /-- An operation does not apply to its operands. -/
  | poisoned (sign : String) (position : Nat)
deriving DecidableEq, Repr

/-- The remarks made while an expression is evaluated, and those that the elements of its value
still have to offer. -/
structure Trace where
  now : List Remark
  elements : List (List (List Remark))

namespace Trace

def quiet : Trace := ⟨[], []⟩

/-- The remarks made while the numbers of a matrix are read off: those on its elements one after
the other, up to the first element that is no number. -/
def readOff {α : Type} [Scalar α] : List (List Remark × Value α) → List Remark
  | [] => []
  | (remarks, v) :: more =>
    match v.number? with
    | some _ => remarks ++ readOff more
    | none => remarks

/-- The remarks made while the numbers of a value are read off. -/
def numbers {α : Type} [Scalar α] (t : Trace) : Value α → List Remark
  | .scalar _ => []
  | .matrix rows => readOff (t.elements.flatten.zip rows.flatten)

/-- The remarks made while the operands of an operation are evaluated and their numbers read off,
in the order in which the operation looks at them. -/
def operands {α : Type} [Scalar α] (op : Operator) (left right : Trace) (l r : Value α) :
    List Remark :=
  match op with
  | .add | .sub | .mul => left.now ++ right.now ++ left.numbers l ++ right.numbers r
  -- the divisor comes first, and if it will not do the dividend is not looked at
  | .div =>
    match r with
    | .matrix _ => right.now
    | .scalar v => if Scalar.isZero v then right.now else right.now ++ left.now ++ left.numbers l
  -- only a matrix that is really multiplied has its numbers read off
  | .pow =>
    match l, r with
    | .matrix rows, .scalar b =>
      match Value.matrixExponent? rows b with
      | none => left.now ++ right.now
      | some n => left.now ++ right.now ++ (if n = 1 then [] else left.numbers l)
    | _, _ => left.now ++ right.now
  | .dot | .cross => left.now ++ left.numbers l ++ right.now ++ right.numbers r

/-- The remarks that the elements of a result still have to offer. -/
def remaining {α : Type} (left : Trace) : Computed α → List (List (List Remark))
  | .scalar _ => []
  | .grid cells => cells.map (fun _ => ([] : List Remark))
  | .unchanged => left.elements
  | .invalid => []

def verdict {α : Type} (op : Operator) (os : Span) : Computed α → List Remark
  | .invalid => [.poisoned op.symbol os.start]
  | _ => []

end Trace

namespace Expr

variable {α : Type} [Scalar α]

mutual

def trace : Expr α → Trace
  | number _ _ => .quiet
  | symbol _ _ => .quiet
  | placeholder _ => .quiet
  | paren inner _ => trace inner
  | matrix rows s => if rectangular rows then ⟨[], traceRows rows⟩ else ⟨[.illFormed s], []⟩
  | binary op os left right _ =>
    let l := left.value
    -- a symbol as an exponent is not evaluated at all
    match op, right.symbol?, l with
    | .pow, some text, .matrix _ =>
      if text = transposeSymbol then ⟨(trace left).now, transpose (trace left).elements⟩
      else ⟨(trace left).now ++ [.poisoned op.symbol os.start], []⟩
    | .pow, some _, .scalar _ => ⟨(trace left).now ++ [.poisoned op.symbol os.start], []⟩
    | op, _, l =>
      let r := right.value
      let result := op.apply l r
      ⟨Trace.operands op (trace left) (trace right) l r ++ Trace.verdict op os result,
        (trace left).remaining result⟩
  | unsupported sign os _ _ _ => ⟨[.poisoned sign os.start], []⟩

/-- What there is to remark on the elements of rows. -/
def traceRows : List (List (Expr α)) → List (List (List Remark))
  | [] => []
  | row :: rows => traceRow row :: traceRows rows

/-- What there is to remark on the elements of a row. -/
def traceRow : List (Expr α) → List (List Remark)
  | [] => []
  | e :: row => (trace e).now :: traceRow row

end

/-- The remarks made while the value of an expression is read off as a matrix of numbers. -/
def readingRemarks (e : Expr α) : List Remark := e.trace.numbers e.value

/-- The remarks made while all elements of the value of an expression are shown. -/
def showingRemarks (e : Expr α) : List Remark := e.trace.elements.flatten.flatten

end Expr

end LinearCalc
