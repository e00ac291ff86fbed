import LinearCalc.Expr.Walk

set_option autoImplicit false

/-! # Tidy trees

A tree is tidy when the span of every node holds the spans of its children, which come one after
the other. Then walking through the tree in preorder never goes back in the text
(`Tidy.preorder_starts`). The children of a node are put together one by one while a text is
parsed, each after the end of the one before; `InOrder` keeps account of that.
-/

namespace LinearCalc
namespace Expr

variable {α : Type}

/-- One node with its children: its span is no reversed one and holds those of its children, and
each child stops before the next ones start. -/
structure TidyNode (e : Expr α) : Prop where
  ordered : e.span.start ≤ e.span.stop
  holds : ∀ c ∈ e.children, c.span.Within e.span
  sequence : e.children.Pairwise (fun c d => c.span.stop ≤ d.span.start)

inductive Tidy : Expr α → Prop where
  | node (e : Expr α) (here : e.TidyNode) (below : ∀ c ∈ e.children, Tidy c) : Tidy e

theorem Tidy.here {e : Expr α} (h : e.Tidy) : e.TidyNode := by
  cases h with
  | node _ here _ => exact here

theorem Tidy.of_mem_children {e : Expr α} (h : e.Tidy) : ∀ c ∈ e.children, c.Tidy := by
  cases h with
  | node _ _ below => exact below

/-- A node without children is tidy when its span is no reversed one. -/
theorem tidy_leaf {e : Expr α} (hchildren : e.children = []) (h : e.span.start ≤ e.span.stop) :
    e.Tidy := by
  refine .node e ⟨h, ?_, ?_⟩ ?_ <;> simp [hchildren]

/-! ## The walk -/

@[simp] theorem preorderRow_append (a b : List (Expr α)) :
    preorderRow (a ++ b) = preorderRow a ++ preorderRow b := by
  induction a with
  | nil => rfl
  | cons e a ih => simp [ih]

theorem preorderRows_eq (rows : List (List (Expr α))) :
    preorderRows rows = preorderRow rows.flatten := by
  induction rows with
  | nil => rfl
  | cons row rows ih => simp [preorderRows, ih]

/-- A walk visits the node itself and then walks through its children. -/
theorem preorder_eq (e : Expr α) : e.preorder = e :: preorderRow e.children := by
  cases e <;> simp [preorder, preorderRows_eq]

/-- A walk through a row is made of the walks through its trees. -/
theorem preorderRow_eq_flatMap (row : List (Expr α)) : preorderRow row = row.flatMap preorder := by
  induction row with
  | nil => rfl
  | cons e row ih => simp [ih]

@[grind =] theorem mem_preorderRow {n : Expr α} {row : List (Expr α)} :
    n ∈ preorderRow row ↔ ∃ e ∈ row, n ∈ e.preorder := by
  rw [preorderRow_eq_flatMap, List.mem_flatMap]

/-- The nodes of a tree are its root and the nodes below each child. -/
@[grind =] theorem mem_preorder {n e : Expr α} :
    n ∈ e.preorder ↔ n = e ∨ ∃ c ∈ e.children, n ∈ c.preorder := by
  rw [preorder_eq, List.mem_cons, mem_preorderRow]

@[simp] theorem self_mem_preorder (e : Expr α) : e ∈ e.preorder := mem_preorder.2 (.inl rfl)

/-- What holds of all nodes of a tree holds of the root and of all nodes below each child. -/
theorem forall_mem_preorder {P : Expr α → Prop} {e : Expr α} :
    (∀ n ∈ e.preorder, P n) ↔ P e ∧ ∀ c ∈ e.children, ∀ n ∈ c.preorder, P n := by
  constructor
  · intro h
    exact ⟨h e (self_mem_preorder e), fun c hc n hn => h n (mem_preorder.2 (.inr ⟨c, hc, hn⟩))⟩
  · rintro ⟨hroot, hbelow⟩ n hn
    rcases mem_preorder.1 hn with rfl | ⟨c, hc, hn⟩
    · exact hroot
    · exact hbelow c hc n hn

/-- What holds of all nodes of a tidy tree is that they are tidy and lie inside the root. -/
theorem Tidy.mem_preorder {e : Expr α} (h : e.Tidy) :
    ∀ n ∈ e.preorder, n.TidyNode ∧ n.span.Within e.span := by
  induction h with
  | node e here below ih =>
      intro n hn
      rcases Expr.mem_preorder.1 hn with rfl | ⟨c, hc, hn⟩
      · exact ⟨here, Span.Within.refl _⟩
      · obtain ⟨htidy, hwithin⟩ := ih c hc n hn
        exact ⟨htidy, hwithin.trans (here.holds c hc)⟩

/-- The nodes of a tidy tree are the roots of tidy trees. -/
theorem Tidy.of_mem_preorder {e : Expr α} (h : e.Tidy) : ∀ n ∈ e.preorder, n.Tidy := by
  induction h with
  | node e here below ih =>
      intro n hn
      rcases Expr.mem_preorder.1 hn with rfl | ⟨c, hc, hn⟩
      · exact .node n here below
      · exact ih c hc n hn

/-- Walking through a sequence of tidy trees never goes back. -/
theorem preorderRow_starts {row : List (Expr α)}
    (hrow : row.Pairwise (fun c d => c.span.stop ≤ d.span.start))
    (htidy : ∀ e ∈ row, e.Tidy)
    (hstarts : ∀ e ∈ row, e.preorder.Pairwise (fun a b => a.span.start ≤ b.span.start)) :
    (preorderRow row).Pairwise (fun a b => a.span.start ≤ b.span.start) := by
  rw [preorderRow_eq_flatMap, List.pairwise_flatMap]
  refine ⟨hstarts, hrow.imp_of_mem ?_⟩
  intro c d hc hd hbetween a ha b hb
  obtain ⟨hatidy, hain⟩ := (htidy c hc).mem_preorder a ha
  obtain ⟨-, hbin⟩ := (htidy d hd).mem_preorder b hb
  calc a.span.start ≤ a.span.stop := hatidy.ordered
    _ ≤ c.span.stop := hain.2
    _ ≤ d.span.start := hbetween
    _ ≤ b.span.start := hbin.1

/-- **A walk through a tidy tree never goes back.** -/
theorem Tidy.preorder_starts {e : Expr α} (h : e.Tidy) :
    e.preorder.Pairwise (fun a b => a.span.start ≤ b.span.start) := by
  induction h with
  | node e here below ih =>
      rw [preorder_eq, List.pairwise_cons]
      refine ⟨?_, preorderRow_starts here.sequence below ih⟩
      intro b hb
      obtain ⟨d, hd, hb⟩ := mem_preorderRow.1 hb
      obtain ⟨-, hbin⟩ := (below d hd).mem_preorder b hb
      exact Nat.le_trans (here.holds d hd).1 hbin.1

/-! ## Trees one after the other -/

/-- Tidy trees that come one after the other between two offsets. -/
def InOrder (start : Nat) : List (Expr α) → Nat → Prop
  | [], stop => start ≤ stop
  | e :: more, stop => start ≤ e.span.start ∧ e.Tidy ∧ InOrder e.span.stop more stop

theorem InOrder.le {start stop : Nat} {row : List (Expr α)} (h : InOrder start row stop) :
    start ≤ stop := by
  induction row generalizing start with
  | nil => exact h
  | cons e row ih =>
      have hordered := h.2.1.here.ordered
      have hrest := ih h.2.2
      have hstart := h.1
      omega

theorem InOrder.mono {start start' stop stop' : Nat} {row : List (Expr α)}
    (h : InOrder start row stop) (hstart : start' ≤ start) (hstop : stop ≤ stop') :
    InOrder start' row stop' := by
  induction row generalizing start start' with
  | nil => exact Nat.le_trans (Nat.le_trans hstart h) hstop
  | cons e row ih => exact ⟨Nat.le_trans hstart h.1, h.2.1, ih h.2.2 (Nat.le_refl _)⟩

theorem InOrder.tidy {start stop : Nat} {row : List (Expr α)} (h : InOrder start row stop) :
    ∀ e ∈ row, e.Tidy := by
  induction row generalizing start with
  | nil => simp
  | cons e row ih =>
      intro d hd
      rcases List.mem_cons.1 hd with rfl | hd
      · exact h.2.1
      · exact ih h.2.2 d hd

/-- The trees lie between the two offsets. -/
theorem InOrder.bounds {start stop : Nat} {row : List (Expr α)} (h : InOrder start row stop) :
    ∀ e ∈ row, start ≤ e.span.start ∧ e.span.stop ≤ stop := by
  induction row generalizing start with
  | nil => simp
  | cons e row ih =>
      intro d hd
      rcases List.mem_cons.1 hd with rfl | hd
      · exact ⟨h.1, h.2.2.le⟩
      · obtain ⟨hstart, hstop⟩ := ih h.2.2 d hd
        have hordered := h.2.1.here.ordered
        have hfirst := h.1
        exact ⟨by omega, hstop⟩

theorem InOrder.pairwise {start stop : Nat} {row : List (Expr α)} (h : InOrder start row stop) :
    row.Pairwise (fun c d => c.span.stop ≤ d.span.start) := by
  induction row generalizing start with
  | nil => exact List.Pairwise.nil
  | cons e row ih =>
      rw [List.pairwise_cons]
      exact ⟨fun d hd => (h.2.2.bounds d hd).1, ih h.2.2⟩

/-- **A node over trees in order is tidy** when its span holds the offsets between which they
lie. -/
theorem InOrder.tidy_node {start stop : Nat} {e : Expr α} (h : InOrder start e.children stop)
    (hstart : e.span.start ≤ start) (hstop : stop ≤ e.span.stop) : e.Tidy := by
  have hle := h.le
  refine .node e ⟨by omega, ?_, h.pairwise⟩ h.tidy
  intro c hc
  obtain ⟨hcstart, hcstop⟩ := h.bounds c hc
  exact ⟨Nat.le_trans hstart hcstart, Nat.le_trans hcstop hstop⟩

end Expr
end LinearCalc
