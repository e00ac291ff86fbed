import LinearCalc.Evaluate
import LinearCalc.Proofs.Levels
import LinearCalc.Proofs.Values.Results

set_option autoImplicit false

/-! # Trees without places

Erasing all spans of a tree (`Expr.erase`) changes neither what it means (`value_erase`) nor how
deep it is (`depth_erase`); evaluating and erasing may be done in either order (`simplify_erase`).
What is shown of a result does not look at spans.
-/

namespace LinearCalc

/-- The span of what has no place. -/
def Span.nowhere : Span := .point 0

namespace Expr

variable {α : Type}

/-! ## Erasing -/

mutual

/-- A tree without the places of its nodes and signs. -/
def erase : Expr α → Expr α
  | number v _ => number v .nowhere
  | symbol text _ => symbol text .nowhere
  | placeholder _ => placeholder .nowhere
  | paren inner _ => paren (erase inner) .nowhere
  | matrix rows _ => matrix (eraseRows rows) .nowhere
  | binary op _ left right _ => binary op .nowhere (erase left) (erase right) .nowhere
  | unsupported sign _ left right _ =>
    unsupported sign .nowhere (erase left) (erase right) .nowhere

def eraseRows : List (List (Expr α)) → List (List (Expr α))
  | [] => []
  | row :: rows => eraseRow row :: eraseRows rows

def eraseRow : List (Expr α) → List (Expr α)
  | [] => []
  | e :: row => erase e :: eraseRow row

end

attribute [simp] erase eraseRows eraseRow

theorem eraseRow_eq_map (row : List (Expr α)) : eraseRow row = row.map erase := by
  induction row with
  | nil => rfl
  | cons e row ih => rw [eraseRow, ih, List.map_cons]

theorem eraseRows_eq_map (rows : List (List (Expr α))) :
    eraseRows rows = rows.map (List.map erase) := by
  induction rows with
  | nil => rfl
  | cons row rows ih => rw [eraseRows, ih, eraseRow_eq_map, List.map_cons]

@[simp] theorem span_erase (e : Expr α) : e.erase.span = .nowhere := by
  cases e <;> simp [span]

@[simp] theorem symbol?_erase (e : Expr α) : e.erase.symbol? = e.symbol? := by
  cases e <;> simp [symbol?]

@[simp] theorem rectangular_eraseRows (rows : List (List (Expr α))) :
    rectangular (eraseRows rows) = rectangular rows := by
  rw [eraseRows_eq_map, rectangular_map]

/-! ## Depth -/

mutual

/-- Erasing does not change how deep a tree is. -/
theorem depth_erase : ∀ e : Expr α, e.erase.depth = e.depth
  | number v s => by rw [erase, depth, depth]
  | symbol text s => by rw [erase, depth, depth]
  | placeholder s => by rw [erase, depth, depth]
  | paren inner s => by rw [erase, depth, depth, depth_erase inner]
  | matrix rows s => by rw [erase, depth, depth, depthRows_erase rows]
  | binary op os left right s => by
      rw [erase, depth, depth, depth_erase left, depth_erase right]
  | unsupported sign os left right s => by
      rw [erase, depth, depth, depth_erase left, depth_erase right]

theorem depthRows_erase : ∀ rows : List (List (Expr α)), depthRows (eraseRows rows) = depthRows rows
  | [] => by rw [eraseRows]
  | row :: rows => by
      rw [eraseRows, depthRows, depthRows, depthRow_erase row, depthRows_erase rows]

theorem depthRow_erase : ∀ row : List (Expr α), depthRow (eraseRow row) = depthRow row
  | [] => by rw [eraseRow]
  | e :: row => by rw [eraseRow, depthRow, depthRow, depth_erase e, depthRow_erase row]

end

@[simp] theorem levels_erase (e : Expr α) : e.erase.levels = e.levels := by
  rw [levels_eq_depth, levels_eq_depth, depth_erase]

/-! ## Meaning -/

section Meaning

variable [Scalar α]

mutual

/-- **A tree means the same without its places.** -/
theorem value_erase : ∀ e : Expr α, e.erase.value = e.value
  | number v s => by rw [erase, value, value]
  | symbol text s => by rw [erase, value, value]
  | placeholder s => by rw [erase, value, value]
  | paren inner s => by rw [erase, value, value, value_erase inner]
  | matrix rows s => by
      rw [erase, value, value, rectangular_eraseRows, valueRows_erase rows]
  | binary op os left right s => by
      rw [erase]
      unfold value
      rw [symbol?_erase, value_erase left, value_erase right]
  | unsupported sign os left right s => by rw [erase, value, value]

theorem valueRows_erase : ∀ rows : List (List (Expr α)), valueRows (eraseRows rows) = valueRows rows
  | [] => by rw [eraseRows]
  | row :: rows => by
      rw [eraseRows, valueRows, valueRows, valueRow_erase row, valueRows_erase rows]

theorem valueRow_erase : ∀ row : List (Expr α), valueRow (eraseRow row) = valueRow row
  | [] => by rw [eraseRow]
  | e :: row => by rw [eraseRow, valueRow, valueRow, value_erase e, valueRow_erase row]

end

/-- Trees that differ in their places only mean the same. -/
theorem value_eq_of_erase_eq {e e' : Expr α} (h : e.erase = e'.erase) : e.value = e'.value := by
  rw [← value_erase e, h, value_erase e']

theorem erase_computed (c : Computed α) (s : Span) (left : Expr α) :
    (c.expr s left).erase = c.expr .nowhere left.erase := by
  cases c with
  | scalar v => rfl
  | grid cells =>
      rw [Computed.expr, erase, eraseRows_eq_map, Computed.expr]
      simp [Grid.map, Function.comp_def]
  | unchanged => rfl
  | invalid => rfl

theorem erase_transposed (e : Expr α) (s : Span) :
    (e.transposed s).erase = e.erase.transposed .nowhere := by
  cases e with
  | matrix rows s' =>
      rw [transposed, erase, erase, transposed, eraseRows_eq_map, eraseRows_eq_map, transpose_map]
  | _ => simp [transposed, erase, invalid]

/-- **Evaluating and erasing may be done in either order.** -/
theorem simplify_erase : ∀ e : Expr α, e.erase.simplify = e.simplify.erase
  | number v s => by rw [erase, simplify, simplify, erase]
  | symbol text s => by rw [erase, simplify, simplify, invalid, invalid, erase]
  | placeholder s => by rw [erase, simplify, simplify, invalid, invalid, erase]
  | paren inner s => by rw [erase, simplify, simplify, simplify_erase inner]
  | matrix rows s => by
      rw [erase, simplify, simplify, rectangular_eraseRows]
      split
      · rw [erase]
      · rw [invalid, invalid, erase]
  | binary op os left right s => by
      rw [erase]
      rcases mark_or_operation op right with ⟨rfl, text, hmark⟩ | hoperation
      · have hmark' : right.erase.symbol? = some text := by rw [symbol?_erase, hmark]
        rw [simplify_mark hmark, simplify_mark hmark', simplify_erase left]
        split
        · rw [erase_transposed]
        · rw [invalid, invalid, erase]
      · have hoperation' : op = .pow → right.erase.symbol? = none := by
          rw [symbol?_erase]
          exact hoperation
        rw [simplify_binary hoperation, simplify_binary hoperation', value_erase, value_erase,
          simplify_erase left, erase_computed]
  | unsupported sign os left right s => by rw [erase, simplify, simplify, invalid, invalid, erase]

end Meaning

/-! ## What is shown -/

/-- What is shown of an element that is not left out depends on what it means. -/
theorem entry_eq {e : Expr Float} (h : ∀ s, e ≠ placeholder s) :
    Entry.of e = match e.value with
      | .scalar v => .number v
      | .matrix _ => .box := by
  cases e with
  | placeholder s => exact absurd rfl (h s)
  | _ => rfl

theorem entry_erase (e : Expr Float) : Entry.of e.erase = Entry.of e := by
  -- an element that is left out has no value, so it is looked at apart from the others
  by_cases h : ∃ s, e = placeholder s
  · obtain ⟨s, rfl⟩ := h
    rw [erase, Entry.of, Entry.of]
  · have hne : ∀ s, e ≠ placeholder s := fun s heq => h ⟨s, heq⟩
    have hne' : ∀ s, e.erase ≠ placeholder s := by
      intro s heq
      cases e with
      | placeholder s' => exact hne s' rfl
      | _ => simp [erase] at heq
    rw [entry_eq hne, entry_eq hne', value_erase]

theorem map_eraseRows {β : Type} {f : Expr α → β} (h : ∀ e, f e.erase = f e)
    (rows : List (List (Expr α))) :
    (eraseRows rows).map (fun row => row.map f) = rows.map (fun row => row.map f) := by
  have hsame : f ∘ erase = f := funext h
  rw [eraseRows_eq_map, List.map_map]
  refine List.map_congr_left (fun row _ => ?_)
  rw [Function.comp_apply, List.map_map, hsame]

/-- **The text of a result does not depend on places**, -/
theorem resultText_erase (precision : Int) (e : Expr Float) :
    e.erase.resultText precision = e.resultText precision := by
  cases e with
  | matrix rows s =>
      have hcell : ∀ c : Expr Float,
          (Entry.of c.erase).text precision = (Entry.of c).text precision := by
        intro c
        rw [entry_erase]
      rw [erase, resultText, resultText, map_eraseRows hcell]
  | _ => simp [erase, resultText]

/-- and neither does the formula for it. -/
theorem resultLatex_erase (precision : Int) (e : Expr Float) :
    e.erase.resultLatex precision = e.resultLatex precision := by
  cases e with
  | matrix rows s =>
      have hcell : ∀ c : Expr Float,
          (Entry.of c.erase).latex precision = (Entry.of c).latex precision := by
        intro c
        rw [entry_erase]
      rw [erase, resultLatex, resultLatex, map_eraseRows hcell]
  | _ => simp [erase, resultLatex]

theorem isInvalid_erase [Scalar α] (e : Expr α) : e.erase.isInvalid = e.isInvalid := by
  cases e <;> simp [erase, isInvalid]

end Expr
end LinearCalc
