import LinearCalc.Proofs.Grammar.Limited

set_option autoImplicit false

/-! # Flat chains

A phrase with all its nested chains is, from left to right, one long chain of operands. `assemble`
gives back its tree: the passes for the tightest `n` levels group the flat chain of a `Phrase n`
into a single tree (`Phrase.assembleTo_flat`). This does not depend on what the operands are, so
that it holds of the tree cut at any nesting limit `m`.
-/

namespace LinearCalc

mutual

/-- The first operand of a phrase, and the other operands with the operators before them. -/
def Phrase.flat {n : Nat} (m : Nat) : Phrase n → Expr Float × List Link
  | .transpose start => ((Phrase.transpose start).tree, [])
  | .term t => (t.treeWithin m, [])
  | .chain first more => ((first.flat m).1, (first.flat m).2 ++ more.flat m)

/-- The operands of what follows the first phrase of a chain, with the operators before them. -/
def Tail.flat {n : Nat} (m : Nat) : Tail n → List Link
  | .nil => []
  | .cons sign _ start operand more =>
    ⟨sign.operator, (sign.token start).span, (operand.flat m).1⟩
      :: ((operand.flat m).2 ++ more.flat m)

end

/-- The phrases of a chain after the first, each as one operand. -/
def Tail.links {n : Nat} (m : Nat) : Tail n → List Link
  | .nil => []
  | .cons sign _ start operand more =>
    ⟨sign.operator, (sign.token start).span, operand.treeWithin m⟩ :: more.links m

/-- The operators of a chain are those of its level. -/
theorem Tail.binding_of_mem_links {n : Nat} (t : Tail n) (m : Nat) :
    ∀ link ∈ t.links m, link.op.binding = 3 - n := by
  match t with
  | .nil => simp [Tail.links]
  | .cons sign level start operand more =>
      have hsum := sign.operator.binding_add_tier
      intro link hlink
      rcases List.mem_cons.1 hlink with rfl | hmore
      · show sign.operator.binding = 3 - n
        omega
      · exact more.binding_of_mem_links m link hmore

/-- Joining the phrases of a chain from the left gives its tree. -/
theorem Tail.foldl_join_links {n : Nat} (t : Tail n) (m : Nat) (before : List Token)
    (left : Expr Float) (hbefore : before ≠ []) (hspan : left.span = extent before) :
    (t.links m).foldl Expr.join left = t.foldTreeWithin m before left := by
  match t with
  | .nil => rfl
  | .cons sign level start operand more =>
      have hspans : left.join ⟨sign.operator, (sign.token start).span, operand.treeWithin m⟩
          = .binary sign.operator (sign.token start).span left (operand.treeWithin m)
              (extent (before ++ sign.token start :: operand.tokens)) := by
        rw [extent_append hbefore (List.cons_ne_nil _ _), extent_cons _ operand.tokens_ne_nil,
          Expr.join, hspan, operand.span_treeWithin]
      rw [Tail.links, List.foldl_cons, hspans, Tail.foldTreeWithin]
      exact more.foldl_join_links m _ _ (by simp) rfl

mutual

/-- **Grouping undoes flattening.** -/
theorem Phrase.assembleTo_flat {n : Nat} (p : Phrase n) (m : Nat) :
    assembleTo n (p.flat m).1 (p.flat m).2 = (p.treeWithin m, []) := by
  match p with
  | .transpose start => rfl
  | .term t => rfl
  | .chain (n := n) first more =>
      have hflat := more.assembleTo_append_flat m _ _ _ (first.assembleTo_flat m)
      rw [assembleTo, Phrase.flat, hflat, fuse_eq_foldl _ _ _ (more.binding_of_mem_links m),
        more.foldl_join_links m _ _ first.tokens_ne_nil (first.span_treeWithin m),
        Phrase.treeWithin]

/-- The passes for the levels inside a chain leave just the operators of the chain itself. -/
theorem Tail.assembleTo_append_flat {n : Nat} (t : Tail n) (m : Nat) (first : Expr Float)
    (before : List Link) (tree : Expr Float) (h : assembleTo n first before = (tree, [])) :
    assembleTo n first (before ++ t.flat m) = (tree, t.links m) := by
  match t with
  | .nil => simpa [Tail.flat, Tail.links] using h
  | .cons sign level start operand more =>
      have hrest := more.assembleTo_append_flat m _ _ _ (operand.assembleTo_flat m)
      rw [Tail.flat, assembleTo_append_cons _ _ _ _ _ (Nat.le_of_eq level.symm), h, hrest]
      rfl

end

/-- The tree of a whole expression comes from its flat chain. -/
theorem assemble_flat (p : Sum) (m : Nat) :
    assemble (p.flat m).1 (p.flat m).2 = p.treeWithin m := by
  rw [assemble_eq_assembleTo, p.assembleTo_flat]

end LinearCalc
