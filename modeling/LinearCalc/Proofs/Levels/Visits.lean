import LinearCalc.Proofs.Levels

set_option autoImplicit false

/-! # Visiting pending nodes in any order

Counting levels off a list of pending nodes comes to the same number whichever node is visited next
and wherever its children are put (`Visits.count`). Each visit takes one node off, so that there are
as many of them as the tree has nodes. `levels` is one such count (`visits_levels`).
-/

namespace LinearCalc
namespace Expr

variable {α : Type}

/-! ## Depths of children -/

theorem depthRow_eq_foldr (row : List (Expr α)) : depthRow row = (row.map depth).foldr max 0 := by
  induction row with
  | nil => rfl
  | cons e row ih => rw [depthRow, ih, List.map_cons, List.foldr_cons]

/-- **The depth is one more than that of the deepest child**, and one where there is no child. -/
theorem depth_eq_foldr (e : Expr α) : e.depth = 1 + (e.children.map depth).foldr max 0 := by
  rw [depth_eq, depthRow_eq_foldr]

/-! ## Pending nodes in any order -/

theorem reach_perm {p q : Pending α} (h : p.Perm q) : reach p = reach q := by
  induction h with
  | nil => rfl
  | cons x _ ih => rw [reach, reach, ih]
  | swap x y l =>
      simp only [reach]
      omega
  | trans _ _ ih ih' => exact ih.trans ih'

theorem pendingSize_cons (e : Expr α) (level : Nat) (pending : Pending α) :
    pendingSize ((e, level) :: pending) = e.size + pendingSize pending := rfl

theorem pendingSize_append (p q : Pending α) :
    pendingSize (p ++ q) = pendingSize p + pendingSize q := by
  rw [pendingSize, List.map_append, sizeRow_append]
  rfl

theorem pendingSize_perm {p q : Pending α} (h : p.Perm q) : pendingSize p = pendingSize q := by
  induction h with
  | nil => rfl
  | cons x _ ih => rw [pendingSize_cons, pendingSize_cons, ih]
  | swap x y l =>
      rw [pendingSize_cons, pendingSize_cons, pendingSize_cons, pendingSize_cons]
      omega
  | trans _ _ ih ih' => exact ih.trans ih'

/-- The children of a node, one level further down. -/
def pendingBelow (e : Expr α) (level : Nat) : Pending α := e.children.map (fun c => (c, level + 1))

theorem pendingSize_pendingBelow (e : Expr α) (level : Nat) :
    1 + pendingSize (e.pendingBelow level) = e.size := by
  have hnodes : (e.pendingBelow level).map Prod.fst = e.children := by
    simp [pendingBelow, Function.comp_def]
  rw [pendingSize, hnodes, size_eq]

/-- A node and what is below it reach as far as the node is deep. -/
theorem max_reach_pendingBelow (e : Expr α) (level : Nat) :
    max (level + 1) (reach (e.pendingBelow level)) = level + e.depth := by
  rw [pendingBelow, max_reach_row, depth_eq]
  omega

/-! ## Visits -/

/-- A count on its way: the deepest level so far, and the nodes still to visit. -/
structure Tally (α : Type) where
  deepest : Nat
  pending : Pending α

namespace Tally

def start (e : Expr α) : Tally α := ⟨0, [(e, 1)]⟩

/-- One more than the deepest level that the count will come to. -/
def bound (t : Tally α) : Nat := max (t.deepest + 1) (reach t.pending)

end Tally

/-- Some pending node is visited: its level is noted, and its children are put among the pending
nodes, wherever that may be. -/
inductive Visit : Tally α → Tally α → Prop where
  | node (deepest : Nat) (e : Expr α) (level : Nat) {pending others next : Pending α}
      (taken : pending.Perm ((e, level) :: others))
      (put : next.Perm (e.pendingBelow level ++ others)) :
      Visit ⟨deepest, pending⟩ ⟨max deepest level, next⟩

/-- A number of visits, one after the other. -/
inductive Visits : Nat → Tally α → Tally α → Prop where
  | none (t : Tally α) : Visits 0 t t
  | more {n : Nat} {s t u : Tally α} (visits : Visits n s t) (visit : Visit t u) :
      Visits (n + 1) s u

/-- A visit takes one node off the trees that are pending. -/
theorem Visit.size {t u : Tally α} (h : Visit t u) :
    pendingSize t.pending = pendingSize u.pending + 1 := by
  cases h with
  | node deepest e level taken put =>
      have hbelow := e.pendingSize_pendingBelow level
      rw [pendingSize_perm taken, pendingSize_perm put, pendingSize_cons, pendingSize_append]
      omega

/-- **A visit does not change what the count will come to.** -/
theorem Visit.bound {t u : Tally α} (h : Visit t u) : t.bound = u.bound := by
  cases h with
  | node deepest e level taken put =>
      have hbelow := e.max_reach_pendingBelow level
      simp only [Tally.bound]
      rw [reach_perm taken, reach_perm put, reach_append, reach]
      omega

/-- As long as nodes are pending there is a visit to make. -/
theorem exists_visit {t : Tally α} (h : t.pending ≠ []) : ∃ u, Visit t u := by
  obtain ⟨deepest, pending⟩ := t
  cases pending with
  | nil => exact absurd rfl h
  | cons p others => exact ⟨_, .node deepest p.1 p.2 (.refl _) (.refl _)⟩

theorem Visits.size {n : Nat} {s t : Tally α} (h : Visits n s t) :
    pendingSize s.pending = pendingSize t.pending + n := by
  induction h with
  | none => rfl
  | more _ visit ih =>
      have hvisit := visit.size
      omega

theorem Visits.bound {n : Nat} {s t : Tally α} (h : Visits n s t) : s.bound = t.bound := by
  induction h with
  | none => rfl
  | more _ visit ih => exact ih.trans visit.bound

/-- **Every count of a tree ends, and ends with its depth.** It makes no more visits than the tree
has nodes, and when no node is pending any more the depth is found. -/
theorem Visits.count {n : Nat} {e : Expr α} {t : Tally α} (h : Visits n (.start e) t) :
    n ≤ e.size ∧ (t.pending = [] → t.deepest = e.depth) := by
  have hsize := h.size
  have hbound := h.bound
  have hstart : pendingSize (Tally.start e).pending = e.size := Nat.add_zero _
  have hdepth := e.depth_eq
  refine ⟨by omega, ?_⟩
  intro hdone
  simp only [Tally.bound, Tally.start, hdone, reach] at hbound
  omega

theorem Visits.trans {m n : Nat} {s t u : Tally α} (h : Visits m s t) (h' : Visits n t u) :
    Visits (m + n) s u := by
  induction h' with
  | none => exact h
  | more _ visit ih => exact (ih h).more visit

/-- Taking the first pending node and putting its children in front is one way to count. -/
theorem visits_deepestLevel (deepest : Nat) (pending : Pending α) :
    Visits (pendingSize pending) ⟨deepest, pending⟩ ⟨deepestLevel deepest pending, []⟩ := by
  fun_induction deepestLevel deepest pending with
  | case1 deepest => exact .none _
  | case2 deepest e level pending ih =>
      have hvisit : Visit ⟨deepest, (e, level) :: pending⟩
          ⟨max deepest level, e.pendingBelow level ++ pending⟩ :=
        .node deepest e level (.refl _) (.refl _)
      have hsize := hvisit.size
      have hfirst : Visits 1 _ _ := (Visits.none _).more hvisit
      rw [hsize, Nat.add_comm]
      exact hfirst.trans ih

theorem visits_levels (e : Expr α) : Visits e.size (.start e) ⟨e.levels, []⟩ :=
  visits_deepestLevel 0 [(e, 1)]

end Expr
end LinearCalc
