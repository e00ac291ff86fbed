import LinearCalc.Expr.Walk

set_option autoImplicit false

/-! # Counting levels

The levels of a tree that are counted off a list of pending nodes are its depth
(`Expr.levels_eq_depth`). What the count comes to for any list of pending nodes is `reach`: the
deepest level that their trees go down to.
-/

namespace LinearCalc
namespace Expr

variable {α : Type}

@[simp] theorem depthRow_append (a b : List (Expr α)) :
    depthRow (a ++ b) = max (depthRow a) (depthRow b) := by
  induction a with
  | nil => simp
  | cons e a ih => simp [ih, Nat.max_assoc]

theorem depthRows_eq (rows : List (List (Expr α))) : depthRows rows = depthRow rows.flatten := by
  induction rows with
  | nil => rfl
  | cons row rows ih => simp [depthRows, ih]

/-- A node is one level, and the rest of its tree is below its children. -/
theorem depth_eq (e : Expr α) : e.depth = 1 + depthRow e.children := by
  cases e <;> simp [depth, depthRows_eq]

/-- One more than the deepest level of the trees still to visit. -/
@[simp] def reach : Pending α → Nat
  | [] => 0
  | (e, level) :: pending => max (level + e.depth) (reach pending)

@[simp] theorem reach_append (a b : Pending α) : reach (a ++ b) = max (reach a) (reach b) := by
  induction a with
  | nil => simp
  | cons p a ih => simp [ih, Nat.max_assoc]

/-- The nodes of a row, all on one level, reach as far below that level as the row is deep. -/
theorem max_reach_row (row : List (Expr α)) (level : Nat) :
    max level (reach (row.map (fun c => (c, level)))) = level + depthRow row := by
  induction row with
  | nil => simp
  | cons e row ih =>
      simp only [List.map_cons, reach, depthRow]
      omega

/-- **The count is the deepest level reached.** Taking a node off the list and putting its children
in does not change how far the list reaches. -/
theorem deepestLevel_eq (deepest : Nat) (pending : Pending α) :
    deepestLevel deepest pending + 1 = max (deepest + 1) (reach pending) := by
  fun_induction deepestLevel deepest pending with
  | case1 deepest => simp
  | case2 deepest e level pending ih =>
      have hrow := max_reach_row e.children (level + 1)
      have hdepth := e.depth_eq
      rw [ih, reach_append, reach]
      omega

theorem levels_eq_depth (e : Expr α) : e.levels = e.depth := by
  have h := deepestLevel_eq 0 [(e, 1)]
  have hdepth := e.depth_eq
  simp only [reach] at h
  unfold levels
  omega

end Expr
end LinearCalc
