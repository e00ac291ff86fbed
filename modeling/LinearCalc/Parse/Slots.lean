import LinearCalc.Parse.Reading

set_option autoImplicit false

/-! # Slots of a matrix

Between its brackets a matrix is a list of expressions and separators. A comma ends a slot, a
semicolon ends a slot and a row, and the end of the list ends the last slot of the last row. Each
slot yields exactly one element: its first expression, or a placeholder where the slot ends when
it holds none. Expressions after the first are surplus.
-/

namespace LinearCalc

/-- What is found between the brackets of a matrix. -/
inductive Item where
  | element (e : Expr Float)
  | comma (span : Span)
  | semicolon (span : Span)

namespace Item

def span : Item → Span
  | element e => e.span
  | comma s => s
  | semicolon s => s

end Item

/-- The element of a slot: the expression found in it, or a placeholder where it ends. -/
def slotElement (found : Option (Expr Float)) (stop : Nat) : Expr Float :=
  found.getD (.placeholder (.point stop))

/-- Fills the slots of a list of items, when `found` is the expression already found in the
current slot and the last slot ends at `stop`. The result is what remains of the current row,
and the rows after it. -/
def fillSlots (stop : Nat) : Option (Expr Float) → List Item →
    List (Expr Float) × List (List (Expr Float))
  | found, [] => ([slotElement found stop], [])
  | none, .element e :: more => fillSlots stop (some e) more
  | some e, .element _ :: more => fillSlots stop (some e) more
  | found, .comma s :: more =>
    let (row, rows) := fillSlots stop none more
    (slotElement found s.start :: row, rows)
  | found, .semicolon s :: more =>
    let (row, rows) := fillSlots stop none more
    ([slotElement found s.start], row :: rows)

/-- The rows of a matrix whose last slot ends at `stop`. -/
def rowsOfItems (stop : Nat) (items : List Item) : List (List (Expr Float)) :=
  let (row, rows) := fillSlots stop none items
  row :: rows

/-- How many expressions stand in a slot that already holds one; `occupied` tells whether the
current slot does. -/
def surplus : Bool → List Item → Nat
  | _, [] => 0
  | occupied, .element _ :: more => (if occupied then 1 else 0) + surplus true more
  | _, .comma _ :: more => surplus false more
  | _, .semicolon _ :: more => surplus false more

end LinearCalc
