import LinearCalc.Proofs.Acceptance
import LinearCalc.Proofs.Carets.Search
import LinearCalc.Proofs.Nesting

set_option autoImplicit false

/-! # The node under a caret

In the tree of a text the search finds a node under a caret just when the caret touches any, and
then none that the caret touches is deeper, except where the caret stands between two minuses that
negate one after the other: there the `-1` of the first minus is found, although the `-1` of the
second one is one level further down (`nodeAt_parse`, `nodeAt_not_deepest`).
-/

namespace LinearCalc

open LinearCalc.Expr

/-- **The node under a caret** in the tree of a text. There is one just when the caret touches any
node; it is a node of the tree that the caret touches; and it is a deepest one just when the caret
does not stand between two minuses. There it touches both the `-1` of the first minus and the
operand, which starts with the second one, and the search goes down into the `-1` only. Between a
minus and a bracket a caret touches two children as well, but nothing below them; all other children
have gaps between them. -/
theorem nodeAt_parse (text : String) (offset : Int) :
    ((parseText text).1.nodeAt offset = none ↔
      ∀ n ∈ (parseText text).1.preorder, n.span.touches offset = false) ∧
    ∀ n, (parseText text).1.nodeAt offset = some n →
      ∃ d, (parseText text).1.HasAt d n ∧ n.span.touches offset = true ∧
        ((∀ m d', (parseText text).1.HasAt d' m → m.span.touches offset = true → d' ≤ d) ↔
          ∀ b ∈ (parseText text).1.preorder, ¬ BetweenMinuses offset b) := by
  have hfollow := tokenize_follow text
  have htidy : (parseText text).1.Tidy := (parse_tidy hfollow).1
  have hspaced : (parseText text).1.AllSpaced := (parse_built hfollow).allSpaced
  refine ⟨nodeAt_eq_none_iff htidy, ?_⟩
  intro n hfound
  obtain ⟨d, hn, htouches, hdeepest⟩ := nodeAt_deepest_iff htidy hspaced hfound
  refine ⟨d, hn, htouches, hdeepest.trans ?_⟩
  simp only [not_exists, not_and]

/-! ## Three minuses -/

def Sum.threeMinuses : Sum :=
  let minuses : Phrase 1 := .chain (.term (Term.minuses 0 3)) .nil
  .chain (.chain (.chain minuses .nil) .nil) .nil

theorem tree_threeMinuses : (parseText "---1").1
    = negation ⟨0, 1⟩ (negation ⟨1, 2⟩ (number (-(plainValue ['1'])) ⟨2, 4⟩) ⟨1, 4⟩) ⟨0, 4⟩ := by
  have hderives : Sum.threeMinuses.Derives (tokenize "---1") :=
    ⟨by decide +kernel, by decide +kernel⟩
  rw [parseText, hderives.parse]
  rfl

/-- Behind the first minus of `---1` the search finds the `-1` of this minus. -/
theorem nodeAt_threeMinuses :
    (parseText "---1").1.nodeAt 1 = some (number (-1) ⟨0, 1⟩) := by
  rw [tree_threeMinuses]
  rfl

theorem nodeAt_parse_minuses :
    (parseText "---1").1.nodeAt 1 = some (number (-1) ⟨0, 1⟩) ∧
    ∃ d, (parseText "---1").1.HasAt d (number (-1) ⟨0, 1⟩) ∧
      (⟨0, 1⟩ : Span).touches 1 = true ∧
      ((∀ m d', (parseText "---1").1.HasAt d' m → m.span.touches 1 = true → d' ≤ d) ↔
        ∀ b ∈ (parseText "---1").1.preorder, ¬ BetweenMinuses 1 b) :=
  ⟨nodeAt_threeMinuses, (nodeAt_parse "---1" 1).2 _ nodeAt_threeMinuses⟩

/-- **The node that the search finds need not be a deepest one**: behind the first minus of `---1`
the `-1` of the second minus is one level further down. -/
theorem nodeAt_not_deepest :
    ¬ ∀ (text : String) (offset : Int) (n : Expr Float),
      (parseText text).1.nodeAt offset = some n →
      ∃ d, (parseText text).1.HasAt d n ∧ ∀ m d', (parseText text).1.HasAt d' m →
        m.span.touches offset = true → d' ≤ d := by
  intro h
  obtain ⟨d, hn, hdeepest⟩ := h "---1" 1 _ nodeAt_threeMinuses
  have htidy : (parseText "---1").1.Tidy := (parse_tidy (tokenize_follow "---1")).1
  rw [tree_threeMinuses] at hn hdeepest htidy
  have hdeeper := hdeepest (number (-1) ⟨1, 2⟩) 2
    (.child (mem_children_negation.2 (.inr rfl)) (.child (mem_children_negation.2 (.inl rfl))
      (.root _))) rfl
  have hdepth : d = 1 := by
    cases hn with
    | child hc hn =>
        rcases mem_children_negation.1 hc with rfl | rfl
        · cases hn with
          | root => rfl
          | child hc' hn => cases hc'
        · -- what the first minus negates starts behind the node
          have hinside : 1 ≤ 0 := (htidy.negation.1.mem_preorder _ hn.mem_preorder).2.1
          omega
  omega

end LinearCalc
