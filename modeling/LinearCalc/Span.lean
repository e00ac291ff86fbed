set_option autoImplicit false

/-! # Spans

A place in the text that was typed: the half-open range of character offsets that a token or a
node of an expression covers. A span may be empty, for a node that stands for something missing.
-/

namespace LinearCalc

/-- The characters from offset `start` up to, but not including, offset `stop`. -/
structure Span where
  start : Nat
  stop : Nat
deriving DecidableEq, Repr, Inhabited

namespace Span

def point (offset : Nat) : Span := ⟨offset, offset⟩

/-- A caret at `offset` touches the span: both ends count, so that a caret right after the last
character still belongs to it. -/
def touches (s : Span) (offset : Int) : Bool :=
  decide ((s.start : Int) ≤ offset) && decide (offset ≤ (s.stop : Int))

/-- The first span lies inside the second one. -/
def Within (inner outer : Span) : Prop :=
  outer.start ≤ inner.start ∧ inner.stop ≤ outer.stop

instance (inner outer : Span) : Decidable (Within inner outer) :=
  inferInstanceAs (Decidable (_ ∧ _))

@[grind =] theorem within_iff (inner outer : Span) :
    inner.Within outer ↔ outer.start ≤ inner.start ∧ inner.stop ≤ outer.stop := Iff.rfl

@[simp] theorem Within.refl (s : Span) : Within s s := ⟨Nat.le_refl _, Nat.le_refl _⟩

theorem Within.trans {a b c : Span} (hab : Within a b) (hbc : Within b c) : Within a c :=
  ⟨Nat.le_trans hbc.1 hab.1, Nat.le_trans hab.2 hbc.2⟩

@[simp, grind =] theorem touches_iff (s : Span) (offset : Int) :
    s.touches offset = true ↔ (s.start : Int) ≤ offset ∧ offset ≤ (s.stop : Int) := by
  simp [touches]

/-- A caret that touches a span touches everything around it. -/
theorem Within.touches {inner outer : Span} {offset : Int} (h : inner.Within outer)
    (htouches : inner.touches offset = true) : outer.touches offset = true := by
  grind

end Span

end LinearCalc
