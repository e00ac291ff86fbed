import LinearCalc.Proofs.Grammar.Limited

set_option autoImplicit false

/-! # Nodes replaced by placeholders

A derivation that is cut at a nesting limit keeps its tree but for the terms that are cut, each of
which is replaced by a placeholder with the span of its tokens (`Phrase.replaced`). What it is to
replace nodes is said of trees alone (`Expr.Replaced`).
-/

namespace LinearCalc

mutual

/-- The second tree is the first one with some nodes, none of them below another, replaced by
placeholders. These nodes had the given spans, in the order of the text. -/
inductive Expr.Replaced : Expr Float → Expr Float → List Span → Prop where
  | none (e : Expr Float) : Expr.Replaced e e []
  | here (e : Expr Float) : Expr.Replaced e (.placeholder e.span) [e.span]
  | paren {inner inner' : Expr Float} {spans : List Span} (s : Span)
      (content : Expr.Replaced inner inner' spans) :
      Expr.Replaced (.paren inner s) (.paren inner' s) spans
  | matrix {rows rows' : List (List (Expr Float))} {spans : List Span} (s : Span)
      (elements : RowsReplaced rows rows' spans) :
      Expr.Replaced (.matrix rows s) (.matrix rows' s) spans
  | binary {left left' right right' : Expr Float} {spans spans' : List Span} (op : Operator)
      (opSpan s : Span) (onLeft : Expr.Replaced left left' spans)
      (onRight : Expr.Replaced right right' spans') :
      Expr.Replaced (.binary op opSpan left right s) (.binary op opSpan left' right' s)
        (spans ++ spans')

inductive RowReplaced : List (Expr Float) → List (Expr Float) → List Span → Prop where
  | nil : RowReplaced [] [] []
  | cons {e e' : Expr Float} {row row' : List (Expr Float)} {spans spans' : List Span}
      (first : Expr.Replaced e e' spans) (more : RowReplaced row row' spans') :
      RowReplaced (e :: row) (e' :: row') (spans ++ spans')

/-- Nodes are replaced in the trees of a list of rows. -/
inductive RowsReplaced :
    List (List (Expr Float)) → List (List (Expr Float)) → List Span → Prop where
  | nil : RowsReplaced [] [] []
  | cons {row row' : List (Expr Float)} {rows rows' : List (List (Expr Float))}
      {spans spans' : List Span} (first : RowReplaced row row' spans)
      (more : RowsReplaced rows rows' spans') :
      RowsReplaced (row :: rows) (row' :: rows') (spans ++ spans')

end

/-- The characters that terms cover. -/
def extents (terms : List Term) : List Span := terms.map (fun t => extent t.tokens)

theorem extents_append (a b : List Term) : extents (a ++ b) = extents a ++ extents b :=
  List.map_append

/-- The whole tree of a term is replaced by a placeholder. -/
theorem Term.replaced_whole (t : Term) :
    t.tree.Replaced (.placeholder (extent t.tokens)) [extent t.tokens] := by
  rw [← t.span_tree]
  exact .here t.tree

mutual

/-- The terms that are cut are replaced in the tree of a term. -/
theorem Term.replaced (t : Term) (m : Nat) :
    t.tree.Replaced (t.treeWithin m) (extents (t.overDeep m)) := by
  -- only with no level left is a term cut; a number needs none
  match t, m with
  | .number digits start, m =>
      have hcut := (Term.number digits start).treeWithin_of_nesting m (Nat.zero_le m)
      rw [hcut.1, hcut.2]
      exact .none _
  | .negation minus body, 0 => exact (Term.negation minus body).replaced_whole
  | .paren opening inner closing, 0 => exact (Term.paren opening inner closing).replaced_whole
  | .matrix opening slots closing, 0 => exact (Term.matrix opening slots closing).replaced_whole
  | .negation minus body, m + 1 =>
      by_cases hnumber : ∃ digits start, body = .number digits start
      · obtain ⟨digits, start, rfl⟩ := hnumber
        have hcut := (Term.number digits start).treeWithin_of_nesting m (Nat.zero_le m)
        rw [Term.overDeep, hcut.2]
        exact .none _
      · simp only [not_exists] at hnumber
        rw [Term.overDeep, Term.treeWithin_negation minus body m hnumber, Term.tree]
        · exact .binary _ _ _ (.none _) (body.replaced m)
        · exact hnumber
  | .paren opening inner closing, m + 1 => exact .paren _ (inner.replaced m)
  | .matrix opening slots closing, m + 1 =>
      obtain ⟨spans, spans', hrow, hrows, hextents⟩ := slots.replaced m closing
      rw [Term.overDeep, ← hextents]
      exact .matrix _ (.cons hrow hrows)

/-- **The terms that are cut are replaced** in the tree of a phrase. -/
theorem Phrase.replaced {n : Nat} (p : Phrase n) (m : Nat) :
    p.tree.Replaced (p.treeWithin m) (extents (p.overDeep m)) := by
  match p with
  | .transpose start => exact .none _
  | .term t => exact t.replaced m
  | .chain first more =>
      rw [Phrase.overDeep, extents_append]
      exact more.replaced m _ (first.replaced m)

/-- The terms that are cut are replaced while a chain is folded. -/
theorem Tail.replaced {n : Nat} (t : Tail n) (m : Nat) (before : List Token)
    {left left' : Expr Float} {spans : List Span} (h : left.Replaced left' spans) :
    (t.foldTree before left).Replaced (t.foldTreeWithin m before left')
      (spans ++ extents (t.overDeep m)) := by
  match t with
  | .nil =>
      rw [Tail.overDeep, extents, List.map_nil, List.append_nil]
      exact h
  | .cons sign level start operand more =>
      rw [Tail.overDeep, extents_append, ← List.append_assoc]
      exact more.replaced m _ (.binary _ _ _ h (operand.replaced m))

theorem Slot.replaced (slot : Slot) (m stop : Nat) :
    (slot.element stop).Replaced (slot.elementWithin m stop) (extents (slot.overDeep m)) := by
  match slot with
  | .empty => exact .none _
  | .filled content => exact content.replaced m

/-- The terms that are cut are replaced in the rows of a matrix. -/
theorem Slots.replaced (slots : Slots) (m closing : Nat) :
    ∃ spans spans', RowReplaced (slots.rows closing).1 (slots.rowsWithin m closing).1 spans ∧
      RowsReplaced (slots.rows closing).2 (slots.rowsWithin m closing).2 spans' ∧
      spans ++ spans' = extents (slots.overDeep m) := by
  match slots with
  | .last slot =>
      refine ⟨_, [], .cons (slot.replaced m closing) .nil, .nil, ?_⟩
      simp [Slots.overDeep]
  | .more slot separator start rest =>
      obtain ⟨spans, spans', hrow, hrows, hextents⟩ := rest.replaced m closing
      have helement := slot.replaced m start
      rw [Slots.overDeep, extents_append, ← hextents]
      -- a comma goes on with the row, and a semicolon begins the next one
      cases separator with
      | comma =>
          refine ⟨_, spans', .cons helement hrow, hrows, ?_⟩
          rw [List.append_assoc]
      | semicolon =>
          refine ⟨_, spans ++ spans', .cons helement .nil, .cons hrow hrows, ?_⟩
          rw [List.append_nil]

end

end LinearCalc
