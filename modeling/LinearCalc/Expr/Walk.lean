import LinearCalc.Expr

set_option autoImplicit false

/-! # Walking through expressions

Questions about the nodes of a tree: all of them in the order of the text, the one under a caret,
and how many levels there are. The levels are counted in two ways. `depth` follows the tree and
says what the number means; `levels` works off a list of pending nodes and so measures a tree of
any height in constant stack.
-/

namespace LinearCalc
namespace Expr

variable {α : Type}

/-! ## All nodes -/

mutual

/-- The nodes of a tree, each before the nodes below it. -/
def preorder : Expr α → List (Expr α)
  | number v s => [number v s]
  | symbol t s => [symbol t s]
  | placeholder s => [placeholder s]
  | paren inner s => paren inner s :: preorder inner
  | matrix rows s => matrix rows s :: preorderRows rows
  | binary op os left right s =>
    binary op os left right s :: (preorder left ++ preorder right)
  | unsupported sign os left right s =>
    unsupported sign os left right s :: (preorder left ++ preorder right)

/-- The nodes of all trees of a list of rows. -/
def preorderRows : List (List (Expr α)) → List (Expr α)
  | [] => []
  | row :: rows => preorderRow row ++ preorderRows rows

@[simp] def preorderRow : List (Expr α) → List (Expr α)
  | [] => []
  | e :: row => preorder e ++ preorderRow row

end

/-! ## The node under a caret -/

mutual

/-- The innermost node whose span, both ends counted, holds the offset: the search goes down into
the first child that holds it. -/
def nodeAt (offset : Int) : Expr α → Option (Expr α)
  | number v s => if s.touches offset then some (number v s) else none
  | symbol t s => if s.touches offset then some (symbol t s) else none
  | placeholder s => if s.touches offset then some (placeholder s) else none
  | paren inner s =>
    if s.touches offset then some ((nodeAt offset inner).getD (paren inner s)) else none
  | matrix rows s =>
    if s.touches offset then some ((nodeAtRows offset rows).getD (matrix rows s)) else none
  | binary op os left right s =>
    if s.touches offset then
      some (((nodeAt offset left).or (nodeAt offset right)).getD (binary op os left right s))
    else none
  | unsupported sign os left right s =>
    if s.touches offset then
      some (((nodeAt offset left).or (nodeAt offset right)).getD
        (unsupported sign os left right s))
    else none

/-- The innermost node under the caret in the first tree of a list of rows that holds it. -/
def nodeAtRows (offset : Int) : List (List (Expr α)) → Option (Expr α)
  | [] => none
  | row :: rows => (nodeAtRow offset row).or (nodeAtRows offset rows)

/-- The innermost node under the caret in the first tree of a row that holds it. -/
def nodeAtRow (offset : Int) : List (Expr α) → Option (Expr α)
  | [] => none
  | e :: row => (nodeAt offset e).or (nodeAtRow offset row)

end

/-! ## Levels -/

mutual

/-- The number of levels of a tree: one for a node without children, and one more than the
deepest child otherwise. -/
def depth : Expr α → Nat
  | number _ _ => 1
  | symbol _ _ => 1
  | placeholder _ => 1
  | paren inner _ => 1 + depth inner
  | matrix rows _ => 1 + depthRows rows
  | binary _ _ left right _ => 1 + max (depth left) (depth right)
  | unsupported _ _ left right _ => 1 + max (depth left) (depth right)

/-- The levels of the deepest tree of a list of rows, none when there is no tree. -/
def depthRows : List (List (Expr α)) → Nat
  | [] => 0
  | row :: rows => max (depthRow row) (depthRows rows)

/-- The levels of the deepest tree of a row, none when there is no tree. -/
@[simp] def depthRow : List (Expr α) → Nat
  | [] => 0
  | e :: row => max (depth e) (depthRow row)

end

mutual

def size : Expr α → Nat
  | number _ _ => 1
  | symbol _ _ => 1
  | placeholder _ => 1
  | paren inner _ => 1 + size inner
  | matrix rows _ => 1 + sizeRows rows
  | binary _ _ left right _ => 1 + (size left + size right)
  | unsupported _ _ left right _ => 1 + (size left + size right)

/-- The number of nodes of all trees of a list of rows. -/
def sizeRows : List (List (Expr α)) → Nat
  | [] => 0
  | row :: rows => sizeRow row + sizeRows rows

/-- The number of nodes of all trees of a row. -/
@[simp] def sizeRow : List (Expr α) → Nat
  | [] => 0
  | e :: row => size e + sizeRow row

end

@[simp] theorem sizeRow_append (a b : List (Expr α)) :
    sizeRow (a ++ b) = sizeRow a + sizeRow b := by
  induction a with
  | nil => simp
  | cons e a ih => simp [ih, Nat.add_assoc]

theorem sizeRows_eq (rows : List (List (Expr α))) : sizeRows rows = sizeRow rows.flatten := by
  induction rows with
  | nil => rfl
  | cons row rows ih => simp [sizeRows, ih]

/-- A node counts one, and the rest of its tree is below its children. -/
theorem size_eq (e : Expr α) : e.size = 1 + sizeRow e.children := by
  cases e <;> simp [size, sizeRows_eq]

/-- The nodes still to visit, each with its level. -/
abbrev Pending (α : Type) := List (Expr α × Nat)

/-- The number of nodes of the trees still to visit. -/
def pendingSize (pending : Pending α) : Nat := sizeRow (pending.map Prod.fst)

/-- The deepest level among `deepest` and the nodes of the pending trees: a node is taken off the
list, its level noted, and its children put in its place, one level further down. -/
def deepestLevel (deepest : Nat) : Pending α → Nat
  | [] => deepest
  | (e, level) :: pending =>
    deepestLevel (max deepest level) (e.children.map (fun c => (c, level + 1)) ++ pending)
termination_by pending => pendingSize pending
decreasing_by
  -- one node leaves the list, and just the nodes below it enter
  have h := size_eq e
  simp [pendingSize, Function.comp_def]
  omega

/-- The number of levels of a tree, counted without recursion into it. -/
def levels (e : Expr α) : Nat := deepestLevel 0 [(e, 1)]

end Expr
end LinearCalc
