import LinearCalc.Expr

set_option autoImplicit false

/-! # Layers of a tree

Going down in a tree from the root to a node without children, one comes through brackets and
negations. A tree is layered when there are only so many of them on every such way: it is built
layer by layer, and only a node that begins a new layer may be one of them (`Layered.countP_le`).
-/

namespace LinearCalc
namespace Expr

/-- The nodes on a way from the root down to a node without children. -/
inductive Branch {α : Type} : Expr α → List (Expr α) → Prop where
  | leaf {e : Expr α} (children : e.children = []) : Branch e [e]
  | node {e child : Expr α} {path : List (Expr α)} (mem : child ∈ e.children)
      (below : Branch child path) : Branch e (e :: path)

/-- The node is a minus in front of an operand: a multiplication by `-1` whose sign covers the same
characters as the `-1`. -/
def isNegation : Expr Float → Bool
  | binary .mul opSpan (number v s) _ _ => v == -1 && decide (opSpan = s)
  | _ => false

/-- The node is a bracket or a negation. -/
def nests : Expr Float → Bool
  | paren _ _ => true
  | matrix _ _ => true
  | e => e.isNegation

/-- A sign behind its left operand is no negation. -/
theorem nests_binary_of_le {op : Operator} {opSpan span : Span} {left right : Expr Float}
    (hafter : left.span.stop ≤ opSpan.start) (hlength : opSpan.start < opSpan.stop) :
    (binary op opSpan left right span).nests = false := by
  cases left with
  | number v s =>
      have hne : opSpan ≠ s := by
        rintro rfl
        exact absurd hlength (Nat.not_lt.2 hafter)
      cases op with
      | mul =>
          show (v == -1 && decide (opSpan = s)) = false
          rw [decide_eq_false hne, Bool.and_false]
      | _ => rfl
  | _ => cases op <;> rfl

/-- At most `n` layers of brackets and negations stand inside one another in the tree. -/
inductive Layered : Nat → Expr Float → Prop where
  /-- A node that is neither does not count. -/
  | plain {n : Nat} {e : Expr Float} (hplain : e.nests = false)
      (below : ∀ c ∈ e.children, Layered n c) : Layered n e
  /-- Any node may begin a new layer. -/
  | layer {n : Nat} {e : Expr Float} (below : ∀ c ∈ e.children, Layered n c) : Layered (n + 1) e

variable {n : Nat} {e : Expr Float}

/-- A node without children has no layers unless it is an empty bracket. -/
theorem Layered.leaf (n : Nat) (hplain : e.nests = false) (hchildren : e.children = []) :
    e.Layered n := by
  refine .plain hplain ?_
  simp [hchildren]

/-- If the branches below a node have at most `n` brackets and negations, so has what a branch has
below the node. -/
theorem Branch.exists_below {path : List (Expr Float)} (h : e.Branch path)
    (hbelow : ∀ c ∈ e.children, ∀ path, c.Branch path → path.countP nests ≤ n) :
    ∃ below, path = e :: below ∧ below.countP nests ≤ n := by
  cases h with
  | leaf hchildren => exact ⟨[], rfl, Nat.zero_le _⟩
  | node hmem hpath => exact ⟨_, rfl, hbelow _ hmem _ hpath⟩

/-- **No branch has more brackets and negations than the tree has layers.** -/
theorem Layered.countP_le (h : e.Layered n) :
    ∀ path, e.Branch path → path.countP nests ≤ n := by
  induction h with
  | plain hplain below ih =>
      intro path hpath
      obtain ⟨tail, rfl, htail⟩ := hpath.exists_below ih
      rw [List.countP_cons_of_neg (Bool.eq_false_iff.1 hplain)]
      exact htail
  | @layer n e below ih =>
      intro path hpath
      obtain ⟨tail, rfl, htail⟩ := hpath.exists_below ih
      calc (e :: tail).countP nests ≤ tail.countP nests + 1 := by
            rw [List.countP_cons]
            split <;> omega
        _ ≤ n + 1 := Nat.succ_le_succ htail

end Expr
end LinearCalc
