import LinearCalc.Parse.Operand
import LinearCalc.Proofs.Rectangles
import Mathlib.Algebra.Ring.Nat

set_option autoImplicit false

/-! # Slots and their elements

The items of a matrix split at semicolons into rows, and each row splits at commas into slots
(`slotsOf`). A matrix has exactly one element for each slot, and each expression that a slot has
beyond its first one is reported (`readMatrix_slots`). The same rows come out of taking the items
one after the other with a flag that tells whether the current slot still expects an expression
(`Filling`).
-/

namespace LinearCalc

namespace Item

/-- The item ends a slot within a row. -/
def isComma : Item → Bool
  | comma _ => true
  | _ => false

/-- The item ends a row. -/
def isSemicolon : Item → Bool
  | semicolon _ => true
  | _ => false

/-- The expression that an item is, if it is one. -/
def expr? : Item → Option (Expr Float)
  | element e => some e
  | _ => none

end Item

/-! ## Splitting -/

/-- Items in a row, and the offset where they end: that of the separator or the bracket after
them. -/
structure Segment where
  items : List Item
  stop : Nat

/-- The segments between the items for which `p` holds; the last one ends at `stop`. -/
def cutAt (p : Item → Bool) (stop : Nat) (items : List Item) : List Segment :=
  List.zipWith Segment.mk (items.splitOnP p)
    ((items.filter p).map (fun item => item.span.start) ++ [stop])

namespace Segment

def push (item : Item) (segment : Segment) : Segment := ⟨item :: segment.items, segment.stop⟩

def slots (row : Segment) : List Segment := cutAt Item.isComma row.stop row.items

/-- The element of a slot: its first expression, or a placeholder where the slot ends. -/
def element (slot : Segment) : Expr Float := slotElement (slot.items.findSome? Item.expr?) slot.stop

/-- How many expressions a slot has beyond the first one. -/
def excess (slot : Segment) : Nat := (slot.items.filterMap Item.expr?).length - 1

end Segment

/-- The slots of a matrix, row by row. The last slot ends at `stop`. -/
def slotsOf (stop : Nat) (items : List Item) : List (List Segment) :=
  (cutAt Item.isSemicolon stop items).map Segment.slots

variable {p : Item → Bool} {stop : Nat} {item : Item} {items : List Item}

theorem cutAt_cons_of_pos (h : p item = true) :
    cutAt p stop (item :: items) = ⟨[], item.span.start⟩ :: cutAt p stop items := by
  rw [cutAt, List.splitOnP_cons_eq_if_modifyHead, if_pos h, List.filter_cons_of_pos h]
  rfl

theorem cutAt_cons_of_neg (h : p item = false) :
    cutAt p stop (item :: items) = (cutAt p stop items).modifyHead (Segment.push item) := by
  have hnot : ¬ p item = true := Bool.eq_false_iff.1 h
  obtain ⟨piece, pieces, hpieces⟩ := List.exists_cons_of_ne_nil (List.splitOnP_ne_nil p items)
  obtain ⟨last, stops, hstops⟩ : ∃ last stops,
      (items.filter p).map (fun item => item.span.start) ++ [stop] = last :: stops :=
    List.exists_cons_of_ne_nil (by simp)
  rw [cutAt, cutAt, List.splitOnP_cons_eq_if_modifyHead, if_neg hnot,
    List.filter_cons_of_neg hnot, hpieces, hstops]
  rfl

/-- There is one segment more than there are items to split at. -/
theorem length_cutAt (p : Item → Bool) (stop : Nat) (items : List Item) :
    (cutAt p stop items).length = items.countP p + 1 := by
  induction items with
  | nil => rfl
  | cons item items ih =>
      cases h : p item with
      | true => rw [cutAt_cons_of_pos h, List.length_cons, ih, List.countP_cons_of_pos h]
      | false =>
          rw [cutAt_cons_of_neg h, List.length_modifyHead, ih,
            List.countP_cons_of_neg (Bool.eq_false_iff.1 h)]

/-- The segments without the places where they end. -/
theorem map_items_cutAt (p : Item → Bool) (stop : Nat) (items : List Item) :
    (cutAt p stop items).map Segment.items = items.splitOnP p := by
  induction items with
  | nil => rfl
  | cons item items ih =>
      rw [List.splitOnP_cons_eq_if_modifyHead, ← ih]
      cases h : p item with
      | true => rw [cutAt_cons_of_pos h, if_pos rfl, List.map_cons]
      | false =>
          rw [cutAt_cons_of_neg h, if_neg Bool.false_ne_true]
          cases cutAt p stop items <;> rfl

/-! ## Rows of slots -/

theorem slotsOf_comma (s : Span) :
    slotsOf stop (.comma s :: items) = (slotsOf stop items).modifyHead (⟨[], s.start⟩ :: ·) := by
  rw [slotsOf, cutAt_cons_of_neg rfl, slotsOf]
  cases cutAt Item.isSemicolon stop items with
  | nil => rfl
  | cons row rows =>
      have hrow : (row.push (.comma s)).slots = ⟨[], s.start⟩ :: row.slots := cutAt_cons_of_pos rfl
      rw [List.modifyHead_cons, List.map_cons, hrow]
      rfl

theorem slotsOf_semicolon (s : Span) :
    slotsOf stop (.semicolon s :: items) = [⟨[], s.start⟩] :: slotsOf stop items := by
  rw [slotsOf, cutAt_cons_of_pos rfl]
  rfl

theorem slotsOf_element (e : Expr Float) :
    slotsOf stop (.element e :: items)
      = (slotsOf stop items).modifyHead (List.modifyHead (Segment.push (.element e))) := by
  rw [slotsOf, cutAt_cons_of_neg rfl, slotsOf]
  cases cutAt Item.isSemicolon stop items with
  | nil => rfl
  | cons row rows =>
      have hrow : (row.push (.element e)).slots
          = row.slots.modifyHead (Segment.push (.element e)) := cutAt_cons_of_neg rfl
      rw [List.modifyHead_cons, List.map_cons, hrow]
      rfl

/-- There is always a first slot. -/
theorem exists_slotsOf (stop : Nat) (items : List Item) :
    ∃ slot row rows, slotsOf stop items = (slot :: row) :: rows := by
  have hcut (p : Item → Bool) (stop : Nat) (items : List Item) :
      ∃ piece pieces, cutAt p stop items = piece :: pieces :=
    List.exists_cons_of_length_pos (by rw [length_cutAt]; exact Nat.succ_pos _)
  obtain ⟨row, rows, hrows⟩ := hcut Item.isSemicolon stop items
  obtain ⟨slot, slots, hslots⟩ := hcut Item.isComma row.stop row.items
  refine ⟨slot, slots, rows.map Segment.slots, ?_⟩
  rw [slotsOf, hrows, List.map_cons, Segment.slots, hslots]

/-- How many slots the rows have. -/
theorem map_length_slotsOf (stop : Nat) (items : List Item) :
    (slotsOf stop items).map List.length
      = (items.splitOnP Item.isSemicolon).map (fun row => row.countP Item.isComma + 1) := by
  rw [← map_items_cutAt Item.isSemicolon stop, slotsOf, List.map_map, List.map_map]
  exact List.map_congr_left (fun row _ => length_cutAt _ _ _)

/-! ## Filling the slots -/

/-- The items of a slot in which an expression has been found already. -/
def heldItems (found : Option (Expr Float)) : List Item := found.toList.map .element

theorem slotsOf_held (found : Option (Expr Float)) :
    slotsOf stop (heldItems found) = [[⟨heldItems found, stop⟩]] := by
  cases found <;> rfl

theorem slotsOf_held_comma (found : Option (Expr Float)) (s : Span) :
    slotsOf stop (heldItems found ++ .comma s :: items)
      = (slotsOf stop items).modifyHead (⟨heldItems found, s.start⟩ :: ·) := by
  obtain ⟨slot, row, rows, hslots⟩ := exists_slotsOf stop items
  cases found with
  | none => exact slotsOf_comma s
  | some e =>
      show slotsOf stop (.element e :: .comma s :: items) = _
      rw [slotsOf_element, slotsOf_comma, hslots]
      rfl

theorem slotsOf_held_semicolon (found : Option (Expr Float)) (s : Span) :
    slotsOf stop (heldItems found ++ .semicolon s :: items)
      = [⟨heldItems found, s.start⟩] :: slotsOf stop items := by
  cases found with
  | none => exact slotsOf_semicolon s
  | some e =>
      show slotsOf stop (.element e :: .semicolon s :: items) = _
      rw [slotsOf_element, slotsOf_semicolon]
      rfl

theorem element_held (found : Option (Expr Float)) (stop : Nat) :
    Segment.element ⟨heldItems found, stop⟩ = slotElement found stop := by
  cases found <;> rfl

theorem excess_held (found : Option (Expr Float)) (stop : Nat) :
    Segment.excess ⟨heldItems found, stop⟩ = 0 := by
  cases found <;> rfl

/-- The slots are filled with their elements. What has been found already stands in front. -/
theorem fillSlots_eq (stop : Nat) (found : Option (Expr Float)) (items : List Item) :
    (fillSlots stop found items).1 :: (fillSlots stop found items).2
      = (slotsOf stop (heldItems found ++ items)).map (List.map Segment.element) := by
  fun_induction fillSlots stop found items with
  | case1 found =>
      rw [List.append_nil, slotsOf_held, ← element_held found stop]
      rfl
  | case2 e more ih => exact ih
  | case3 e other more ih =>
      -- the slot keeps its first expression
      obtain ⟨slot, row, rows, hslots⟩ := exists_slotsOf stop more
      rw [ih]
      show (slotsOf stop (.element e :: more)).map _
        = (slotsOf stop (.element e :: .element other :: more)).map _
      rw [slotsOf_element, slotsOf_element, slotsOf_element, hslots]
      rfl
  | case4 found s more row rows hmore ih =>
      rw [hmore] at ih
      rw [slotsOf_held_comma, ← element_held found s.start]
      obtain ⟨slot, slots, pieces, hslots⟩ := exists_slotsOf stop more
      rw [heldItems, Option.toList_none, List.map_nil, List.nil_append, hslots] at ih
      rw [hslots, List.modifyHead_cons, List.map_cons, List.map_cons]
      obtain ⟨hrow, hrows⟩ := List.cons.inj ih
      dsimp only at hrow hrows ⊢
      rw [hrow, hrows]
  | case5 found s more row rows hmore ih =>
      rw [hmore] at ih
      rw [slotsOf_held_semicolon, ← element_held found s.start, List.map_cons]
      exact congrArg (_ :: ·) ih

/-- **A matrix has one element for each slot.** -/
theorem rowsOfItems_eq (stop : Nat) (items : List Item) :
    rowsOfItems stop items = (slotsOf stop items).map (List.map Segment.element) :=
  fillSlots_eq stop none items

/-- Expressions are surplus when they are not the first of their slot. -/
theorem surplus_held (stop : Nat) (found : Option (Expr Float)) (items : List Item) :
    surplus found.isSome items
      = ((slotsOf stop (heldItems found ++ items)).flatten.map Segment.excess).sum := by
  induction items generalizing found with
  | nil =>
      rw [List.append_nil, slotsOf_held]
      exact (excess_held found stop).symm
  | cons item items ih =>
      cases item with
      | comma s =>
          obtain ⟨slot, row, rows, hslots⟩ := exists_slotsOf stop items
          have hrest := ih none
          rw [heldItems, Option.toList_none, List.map_nil, List.nil_append, hslots] at hrest
          rw [surplus, slotsOf_held_comma, hslots, List.modifyHead_cons, List.flatten_cons,
            List.cons_append, List.map_cons, List.sum_cons, excess_held, Nat.zero_add]
          exact hrest
      | semicolon s =>
          rw [surplus, slotsOf_held_semicolon, List.flatten_cons, List.singleton_append,
            List.map_cons, List.sum_cons, excess_held, Nat.zero_add]
          exact ih none
      | element other =>
          cases found with
          | none =>
              rw [surplus, Option.isSome_none, if_neg Bool.false_ne_true, Nat.zero_add]
              exact ih (some other)
          | some e =>
              -- the slot has one expression more
              obtain ⟨slot, row, rows, hslots⟩ := exists_slotsOf stop items
              have hrest : surplus true items
                  = ((slotsOf stop (.element e :: items)).flatten.map Segment.excess).sum :=
                ih (some e)
              show surplus true (.element other :: items)
                = ((slotsOf stop (.element e :: .element other :: items)).flatten.map
                  Segment.excess).sum
              rw [surplus, if_pos rfl, hrest, slotsOf_element, slotsOf_element, slotsOf_element,
                hslots]
              simp only [List.modifyHead_cons, List.flatten_cons, List.cons_append, List.map_cons,
                List.sum_cons, Segment.excess, Segment.push, List.filterMap_cons, Item.expr?,
                List.length_cons]
              omega

theorem surplus_eq (stop : Nat) (items : List Item) :
    surplus false items = ((slotsOf stop items).flatten.map Segment.excess).sum :=
  surplus_held stop none items

/-! ## One item after the other -/

/-- Rows that are being filled: those that are finished, the current one, whether its last slot
still expects an expression, and how many expressions were surplus so far. -/
structure Filling where
  finished : List (List (Expr Float))
  row : List (Expr Float)
  expecting : Bool
  surplus : Nat

namespace Filling

def start : Filling := ⟨[], [], true, 0⟩

def endSlot (f : Filling) (stop : Nat) : Filling :=
  if f.expecting then { f with row := f.row ++ [.placeholder (.point stop)] }
  else { f with expecting := true }

def take (f : Filling) : Item → Filling
  | .element e =>
    if f.expecting then { f with row := f.row ++ [e], expecting := false }
    else { f with surplus := f.surplus + 1 }
  | .comma s => f.endSlot s.start
  | .semicolon s =>
    let f := f.endSlot s.start
    { f with finished := f.finished ++ [f.row], row := [] }

def rows (f : Filling) : List (List (Expr Float)) := f.finished ++ [f.row]

/-- Fills the slots of a matrix, the last of which ends at `stop`. -/
def fill (stop : Nat) (items : List Item) : Filling := (items.foldl take start).endSlot stop

/-- The current slot is the last one of the current row: what has been found in it stands there,
and it expects an expression just when nothing has been found. -/
structure Holds (f : Filling) (before : List (Expr Float)) (found : Option (Expr Float)) :
    Prop where
  row : f.row = before ++ found.toList
  expecting : f.expecting = found.isNone

variable {f : Filling} {before : List (Expr Float)} {found : Option (Expr Float)}

/-- Ending a slot puts its element into the row. -/
theorem Holds.endSlot (h : f.Holds before found) (stop : Nat) :
    f.endSlot stop = { f with row := before ++ [slotElement found stop], expecting := true } := by
  obtain ⟨finished, row, expecting, count⟩ := f
  obtain ⟨hrow, hexpecting⟩ := h
  subst hrow hexpecting
  cases found with
  | none =>
      rw [Option.toList_none, List.append_nil]
      rfl
  | some e => rfl

/-- Taking the items from a slot on gives what filling the slots gives. -/
theorem Holds.foldl (stop : Nat) (items : List Item) (h : f.Holds before found) :
    ((items.foldl take f).endSlot stop).rows
        = f.finished ++ (before ++ (fillSlots stop found items).1) ::
          (fillSlots stop found items).2 ∧
      ((items.foldl take f).endSlot stop).surplus
        = f.surplus + LinearCalc.surplus found.isSome items := by
  -- `Holds` ties the flag machine to the row so far and the expression of the open slot; each item
  -- keeps it, with another row or another expression
  induction items generalizing f before found with
  | nil =>
      rw [List.foldl_nil, h.endSlot]
      cases found <;> exact ⟨rfl, rfl⟩
  | cons item items ih =>
      rw [List.foldl_cons]
      cases item with
      | element e =>
          cases found with
          | none =>
              have htake : f.take (.element e)
                  = { f with row := before ++ [e], expecting := false } := by
                rw [take, h.expecting, h.row]
                simp
              rw [htake, fillSlots, LinearCalc.surplus, Option.isSome_none,
                if_neg Bool.false_ne_true, Nat.zero_add]
              exact ih ⟨rfl, rfl⟩
          | some first =>
              have htake : f.take (.element e) = { f with surplus := f.surplus + 1 } := by
                rw [take, h.expecting]
                rfl
              have hholds : Holds { f with surplus := f.surplus + 1 } before (some first) :=
                ⟨h.row, h.expecting⟩
              obtain ⟨hrows, hsurplus⟩ := ih hholds
              rw [htake, fillSlots, hrows, hsurplus, LinearCalc.surplus, Option.isSome_some,
                if_pos rfl, Nat.add_assoc]
              exact ⟨rfl, rfl⟩
      | comma s =>
          have hholds : Holds
              { f with row := before ++ [slotElement found s.start], expecting := true }
              (before ++ [slotElement found s.start]) none := ⟨by simp, rfl⟩
          obtain ⟨hrows, hsurplus⟩ := ih hholds
          rw [take, h.endSlot, hrows, hsurplus, List.append_assoc]
          exact ⟨rfl, rfl⟩
      | semicolon s =>
          have hholds : Holds
              { f with
                finished := f.finished ++ [before ++ [slotElement found s.start]]
                row := []
                expecting := true } [] none := ⟨rfl, rfl⟩
          obtain ⟨hrows, hsurplus⟩ := ih hholds
          rw [take, h.endSlot, hrows, hsurplus, List.append_assoc]
          exact ⟨rfl, rfl⟩

/-- **Taking one item after the other fills the same rows**, and finds as much surplus. -/
theorem fill_eq (stop : Nat) (items : List Item) :
    (fill stop items).rows = rowsOfItems stop items ∧
      (fill stop items).surplus = LinearCalc.surplus false items := by
  have hstart : start.Holds [] none := ⟨rfl, rfl⟩
  obtain ⟨hrows, hsurplus⟩ := hstart.foldl stop items
  refine ⟨hrows, ?_⟩
  rw [fill, hsurplus, start, Nat.zero_add]
  rfl

end Filling

/-! ## The rows of a matrix -/

/-- A row has one slot more than it has commas. -/
theorem length_of_mem_slotsOf {row : List Segment} (h : row ∈ slotsOf stop items) :
    ∃ piece ∈ items.splitOnP Item.isSemicolon, piece.countP Item.isComma + 1 = row.length := by
  have hlength : row.length ∈ (slotsOf stop items).map List.length := List.mem_map_of_mem h
  rw [map_length_slotsOf] at hlength
  exact List.mem_map.1 hlength

theorem exists_mem_slotsOf (stop : Nat) {piece : List Item}
    (h : piece ∈ items.splitOnP Item.isSemicolon) :
    ∃ row ∈ slotsOf stop items, row.length = piece.countP Item.isComma + 1 := by
  have hlength : piece.countP Item.isComma + 1 ∈ (slotsOf stop items).map List.length := by
    rw [map_length_slotsOf]
    exact List.mem_map_of_mem h
  exact List.mem_map.1 hlength

/-- The slots form a rectangle just when the rows have the same number of commas. -/
theorem rectangular_slotsOf_iff (stop : Nat) (items : List Item) :
    rectangular (slotsOf stop items) = true ↔
      ∀ row ∈ items.splitOnP Item.isSemicolon, ∀ row' ∈ items.splitOnP Item.isSemicolon,
        row.countP Item.isComma = row'.countP Item.isComma := by
  rw [rectangular_iff]
  constructor
  · rintro ⟨m, n, -, -, hrect⟩ row hrow row' hrow'
    obtain ⟨slots, hslots, hlength⟩ := exists_mem_slotsOf stop hrow
    obtain ⟨slots', hslots', hlength'⟩ := exists_mem_slotsOf stop hrow'
    have hwidth := hrect.width slots hslots
    have hwidth' := hrect.width slots' hslots'
    omega
  · intro hsame
    -- there is always a first row with a first slot, so the width is its length
    obtain ⟨slot, first, rows, hslots⟩ := exists_slotsOf stop items
    have hfirst : slot :: first ∈ slotsOf stop items := by
      rw [hslots]
      exact List.mem_cons_self
    refine ⟨(slotsOf stop items).length, (slot :: first).length,
      List.length_pos_of_mem hfirst, Nat.succ_pos _, rfl, ?_⟩
    intro row hrow
    obtain ⟨piece, hpiece, hlength⟩ := length_of_mem_slotsOf hrow
    obtain ⟨piece', hpiece', hlength'⟩ := length_of_mem_slotsOf hfirst
    rw [← hlength, ← hlength', hsame piece hpiece piece' hpiece']

/-- **A matrix has exactly one element for each slot.** Its items, up to the bracket that closes it
or to the end, are split at semicolons into rows and at commas into slots; a slot gives its first
expression, or a placeholder where it ends, and each further expression is reported. So there is one
row more than there are semicolons, each row has one element more than it has commas, and the matrix
is valid just when all rows have the same number of commas. -/
theorem readMatrix_slots (operand : OperandReader) (token : Token) (rest : List Token) :
    ∃ items close stop rows span,
      (readItems operand token.stop rest).value = (items, close) ∧
      stop = (match close with
        | some bracket => bracket.start
        | none => (items.getLast?.map (fun item => item.span.stop)).getD token.stop) ∧
      (readMatrix operand token rest).value = .matrix rows span ∧
      rows = (slotsOf stop items).map (List.map Segment.element) ∧
      rows = (Filling.fill stop items).rows ∧
      rows.length = items.countP Item.isSemicolon + 1 ∧
      rows.map List.length
        = (items.splitOnP Item.isSemicolon).map (fun row => row.countP Item.isComma + 1) ∧
      [] ∉ rows ∧
      (readMatrix operand token rest).diagnostics
        = (readItems operand token.stop rest).diagnostics ++
          List.replicate (Filling.fill stop items).surplus .expectedSeparator ∧
      (Filling.fill stop items).surplus = ((slotsOf stop items).flatten.map Segment.excess).sum ∧
      (rectangular rows = true ↔
        ∀ row ∈ items.splitOnP Item.isSemicolon, ∀ row' ∈ items.splitOnP Item.isSemicolon,
          row.countP Item.isComma = row'.countP Item.isComma) := by
  obtain ⟨items, close, hvalue⟩ : ∃ items close,
      (readItems operand token.stop rest).value = (items, close) := ⟨_, _, rfl⟩
  obtain ⟨hfill, hsurplus⟩ := Filling.fill_eq (lastSlotStop token items close) items
  have hrows := rowsOfItems_eq (lastSlotStop token items close) items
  have hlengths : (rowsOfItems (lastSlotStop token items close) items).map List.length
      = (items.splitOnP Item.isSemicolon).map (fun row => row.countP Item.isComma + 1) := by
    rw [hrows, List.map_map, ← map_length_slotsOf (lastSlotStop token items close)]
    exact List.map_congr_left (fun row _ => List.length_map _)
  refine ⟨items, close, lastSlotStop token items close,
    rowsOfItems (lastSlotStop token items close) items,
    ⟨token.start, matrixStop token items close⟩, hvalue, ?_, ?_, hrows, hfill.symm, ?_, hlengths,
    ?_, ?_, ?_, ?_⟩
  · cases close <;> rfl
  · rw [readMatrix, hvalue]
  · rw [hrows, List.length_map, slotsOf, List.length_map, length_cutAt]
  · intro hempty
    have hzero : 0 ∈ (rowsOfItems (lastSlotStop token items close) items).map List.length :=
      List.mem_map_of_mem hempty
    rw [hlengths] at hzero
    obtain ⟨row, -, hrow⟩ := List.mem_map.1 hzero
    exact Nat.succ_ne_zero _ hrow
  · rw [readMatrix, hvalue, hsurplus]
  · rw [hsurplus, surplus_eq]
  · rw [hrows, rectangular_map, rectangular_slotsOf_iff]

end LinearCalc
