import LinearCalc.Token

set_option autoImplicit false

/-! # Expressions

Trees of scalars and matrices, as they are typed and as they come out of a computation. Every
node carries the span of the text it stands for. The numbers are of any type, so that the same
trees serve floating-point calculation and exact arithmetic.

A tree need not make sense: rows of a matrix may differ in length, an operand may be missing, and
a tree built by hand may even use a sign for which there is no operation.
-/

namespace LinearCalc

/-- An expression over numbers of type `α`. -/
inductive Expr (α : Type) where
  /-- A number, typed or computed. -/
  | number (value : α) (span : Span)
  /-- A mark that stands where an operand would; the `T` of a transpose is one. -/
  | symbol (text : String) (span : Span)
  /-- An empty slot: a missing operand, or a matrix element left out. -/
  | placeholder (span : Span)
  /-- An expression in parentheses. -/
  | paren (inner : Expr α) (span : Span)
  /-- The rows of a matrix. -/
  | matrix (rows : List (List (Expr α))) (span : Span)
  /-- Two operands and the operation between them, whose sign has a span of its own. -/
  | binary (op : Operator) (opSpan : Span) (left right : Expr α) (span : Span)
  /-- Two operands and a sign between them that stands for no operation. -/
  | unsupported (sign : String) (opSpan : Span) (left right : Expr α) (span : Span)

namespace Expr

variable {α : Type}

instance : Inhabited (Expr α) := ⟨placeholder default⟩

def span : Expr α → Span
  | number _ s => s
  | symbol _ s => s
  | placeholder s => s
  | paren _ s => s
  | matrix _ s => s
  | binary _ _ _ _ s => s
  | unsupported _ _ _ _ s => s

/-- The nodes right below a node, in the order of the text. -/
def children : Expr α → List (Expr α)
  | paren inner _ => [inner]
  | matrix rows _ => rows.flatten
  | binary _ _ left right _ => [left, right]
  | unsupported _ _ left right _ => [left, right]
  | _ => []

section Children

variable (inner left right : Expr α) (rows : List (List (Expr α))) (os s : Span)

@[simp] theorem children_number (value : α) : (number value s).children = [] := rfl

@[simp] theorem children_symbol (text : String) : (symbol (α := α) text s).children = [] := rfl

@[simp] theorem children_placeholder : (placeholder (α := α) s).children = [] := rfl

@[simp] theorem children_paren : (paren inner s).children = [inner] := rfl

@[simp] theorem children_matrix : (matrix rows s).children = rows.flatten := rfl

@[simp] theorem children_binary (op : Operator) :
    (binary op os left right s).children = [left, right] := rfl

@[simp] theorem children_unsupported (sign : String) :
    (unsupported sign os left right s).children = [left, right] := rfl

end Children

end Expr

/-! ## The shape of a list of rows -/

/-- The number of rows, and the length of the first of them. -/
def shape {β : Type} (rows : List (List β)) : Nat × Nat :=
  (rows.length, (rows.head?.map List.length).getD 0)

/-- There is a row, it is not empty, and all rows are as long as it. -/
def rectangular {β : Type} (rows : List (List β)) : Bool :=
  match rows with
  | [] => false
  | row :: more => !row.isEmpty && more.all (fun r => r.length == row.length)

section Rows

variable {β : Type} {row : List β} {rows : List (List β)}

@[simp] theorem shape_cons : shape (row :: rows) = (rows.length + 1, row.length) := rfl

@[simp] theorem rectangular_cons :
    rectangular (row :: rows) = true ↔ row ≠ [] ∧ ∀ r ∈ rows, r.length = row.length := by
  simp [rectangular]

end Rows

end LinearCalc
