import LinearCalc.Value

set_option autoImplicit false

/-! # Simplifying

Evaluation of expressions. `Expr.value` says what an expression means; `Expr.simplify` gives the
tree of its result, which is a number or a matrix. A matrix that was typed comes out as it was
typed, and transposing it moves its elements without evaluating them; every other result is made
of numbers that carry the span of the operation which computed them.
-/

namespace LinearCalc

namespace Expr

variable {α : Type}

def symbol? : Expr α → Option String
  | symbol text _ => some text
  | _ => none

/-- The symbol that, as an exponent, transposes. -/
def transposeSymbol : String := "T"

variable [Scalar α]

/-! ## Meaning -/

mutual

/-- The meaning of an expression. A symbol means nothing except as the exponent of a matrix. -/
def value : Expr α → Value α
  | number v _ => .scalar v
  | symbol _ _ => .invalid
  | placeholder _ => .invalid
  | paren inner _ => value inner
  | matrix rows _ => if rectangular rows then .matrix (valueRows rows) else .invalid
  | binary op _ left right _ =>
    match op, right.symbol? with
    | .pow, some text => if text = transposeSymbol then (value left).transposed else .invalid
    | op, _ => (op.apply (value left) (value right)).value (value left)
  | unsupported _ _ _ _ _ => .invalid

def valueRows : List (List (Expr α)) → List (List (Value α))
  | [] => []
  | row :: rows => valueRow row :: valueRows rows

def valueRow : List (Expr α) → List (Value α)
  | [] => []
  | e :: row => value e :: valueRow row

end

/-! ## Results -/

/-- The node for what has no value. -/
def invalid (s : Span) : Expr α := number Scalar.nan s

def isInvalid : Expr α → Bool
  | number v _ => Scalar.isNaN v
  | _ => false

end Expr

/-- The tree of a result that spans `s`, when `left` is the tree of the left operand. -/
def Computed.expr {α : Type} [Scalar α] (s : Span) (left : Expr α) : Computed α → Expr α
  | scalar v => .number v s
  | grid cells => .matrix (cells.map (fun v => .number v s)) s
  | unchanged => left
  | invalid => .invalid s

namespace Expr

variable {α : Type} [Scalar α]

/-- The transpose of a matrix as a tree that spans `s`. -/
def transposed (s : Span) : Expr α → Expr α
  | matrix rows _ => matrix (transpose rows) s
  | _ => invalid s

/-- Evaluates an expression to a number or a matrix. -/
def simplify : Expr α → Expr α
  | number v s => number v s
  | symbol _ s => invalid s
  | placeholder s => invalid s
  | paren inner _ => simplify inner
  | matrix rows s => if rectangular rows then matrix rows s else invalid s
  | binary op _ left right s =>
    match op, right.symbol? with
    | .pow, some text =>
      if text = transposeSymbol then (simplify left).transposed s else invalid s
    | op, _ => (op.apply (value left) (value right)).expr s (simplify left)
  | unsupported _ _ _ _ s => invalid s

/-- The numbers of a matrix all of whose elements evaluate to numbers. -/
def numbers? (e : Expr α) : Option (Grid α) :=
  match e with
  | matrix rows _ =>
    if rectangular rows then rows.mapM (fun row => row.mapM (fun c => c.value.number?)) else none
  | _ => none

end Expr

end LinearCalc
