import LinearCalc.Parse.Chain

set_option autoImplicit false

/-! # Grouping chains of operators

`assemble` groups a chain in four passes, the tightest operators first. The lemmas here say what
the passes do to a chain that is put together from shorter ones: across an operator that a pass
does not join, it works on the two sides apart (`fuse_append_cons`, `assembleTo_append_cons`), and
where it joins every operator, it folds the chain from the left (`fuse_eq_foldl`).
-/

namespace LinearCalc

/-- How many levels bind more tightly than an operation. -/
def Operator.tier (op : Operator) : Nat := 3 - op.binding

theorem Operator.binding_add_tier (op : Operator) : op.binding + op.tier = 3 := by
  cases op <;> rfl

/-- The `n` tightest passes of `assemble`. -/
def assembleTo : Nat → Expr Float → List Link → Expr Float × List Link
  | 0, first, links => (first, links)
  | n + 1, first, links => fuse (3 - n) (assembleTo n first links).1 (assembleTo n first links).2

theorem assemble_eq_assembleTo (first : Expr Float) (links : List Link) :
    assemble first links = (assembleTo 4 first links).1 := rfl

/-! ## One pass -/

/-- **A pass stops at an operator of another level.** What comes before that operator and what
comes after it are joined apart from each other. -/
theorem fuse_append_cons (level : Nat) (first : Expr Float) (before : List Link) (link : Link)
    (after : List Link) (h : link.op.binding ≠ level) :
    fuse level first (before ++ link :: after)
      = ((fuse level first before).1, (fuse level first before).2
          ++ { link with operand := (fuse level link.operand after).1 }
            :: (fuse level link.operand after).2) := by
  induction before generalizing first with
  | nil => simp [fuse, h]
  | cons l before ih =>
      by_cases hl : l.op.binding = level
      · simp only [List.cons_append, fuse, hl, if_true]
        exact ih (first.join l)
      · simp only [List.cons_append, fuse, hl, if_false, ih l.operand]

/-- Where every operator is of its level, a pass folds the whole chain from the left. -/
theorem fuse_eq_foldl (level : Nat) (first : Expr Float) (links : List Link)
    (h : ∀ link ∈ links, link.op.binding = level) :
    fuse level first links = (links.foldl Expr.join first, []) := by
  induction links generalizing first with
  | nil => rfl
  | cons link links ih =>
      rw [fuse, if_pos (h link (by simp)), List.foldl_cons]
      exact ih (first.join link) (fun l hl => h l (by simp [hl]))

/-! ## Several passes -/

/-- **The tightest `n` passes stop at a looser operator.** -/
theorem assembleTo_append_cons (n : Nat) (first : Expr Float) (before : List Link) (link : Link)
    (after : List Link) (h : n ≤ link.op.tier) :
    assembleTo n first (before ++ link :: after)
      = ((assembleTo n first before).1, (assembleTo n first before).2
          ++ { link with operand := (assembleTo n link.operand after).1 }
            :: (assembleTo n link.operand after).2) := by
  induction n with
  | zero => rfl
  | succ n ih =>
      have hne : link.op.binding ≠ 3 - n := by
        have := link.op.binding_add_tier
        omega
      simp only [assembleTo, ih (by omega)]
      rw [fuse_append_cons]
      exact hne

end LinearCalc
