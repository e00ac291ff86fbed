import LinearCalc.Proofs.Sources

set_option autoImplicit false

/-! # Gaps between children

Between two children of a node there is a word: the sign of an operation, or the comma or semicolon
between two elements. So the one stops before the other starts, and a caret touches at most one of
them. Only a minus that negates an operand stands right next to that operand, since the `-1` on its
left covers the minus itself (`Expr.Spaced`). What follows the minus is then another such minus, or
it starts with a character of its own.
-/

namespace LinearCalc
namespace Expr

/-- There are gaps between the children of the node, unless it is a negation. -/
inductive Spaced : Expr Float → Prop where
  | apart (e : Expr Float) (h : e.children.Pairwise (fun c d => c.span.stop < d.span.start)) :
      Spaced e
  | negation (minus : Span) (right : Expr Float) (s : Span) (length : minus.start < minus.stop)
      (before : minus.stop ≤ right.span.start) (leading : right.Leading) :
      Spaced (negation minus right s)

def AllSpaced (e : Expr Float) : Prop := ∀ n ∈ e.preorder, n.Spaced

theorem allSpaced_iff {e : Expr Float} :
    e.AllSpaced ↔ e.Spaced ∧ ∀ c ∈ e.children, c.AllSpaced :=
  forall_mem_preorder

/-- There is nothing to ask of a node without children. -/
theorem allSpaced_leaf {e : Expr Float} (hchildren : e.children = []) : e.AllSpaced := by
  refine allSpaced_iff.2 ⟨.apart e ?_, ?_⟩ <;> simp [hchildren]

/-- **There are gaps at every node of a built tree**: a sign, a comma or a semicolon is no empty
word. -/
theorem Built.allSpaced {tokens : List Token} {n : Nat} {e : Expr Float} (h : e.Built tokens n) :
    e.AllSpaced := by
  induction h with
  | leaf _ _ children => exact allSpaced_leaf children
  | operation t s left right _ lexeme afterLeft beforeRight _ _ ihLeft ihRight =>
      have hgap : left.span.stop < right.span.start := by
        -- the sign of the operator stands between its operands, and has a character
        calc left.span.stop ≤ t.start := afterLeft
          _ < t.stop := by rw [Token.eq_sign lexeme]; exact Nat.lt_succ_self _
          _ ≤ right.span.start := beforeRight
      refine allSpaced_iff.2 ⟨.apart _ ?_, ?_⟩
      · exact List.pairwise_pair.2 hgap
      · exact List.forall_mem_cons.2 ⟨ihLeft, List.forall_mem_singleton.2 ihRight⟩
  | negation minus right _ before leading _ ih =>
      refine allSpaced_iff.2 ⟨.negation _ right _ (Nat.lt_succ_self minus) before leading, ?_⟩
      exact List.forall_mem_cons.2 ⟨allSpaced_leaf rfl, List.forall_mem_singleton.2 ih⟩
  | paren opening stop inner _ _ _ ih =>
      exact allSpaced_iff.2
        ⟨.apart _ (List.pairwise_singleton _ _), List.forall_mem_singleton.2 ih⟩
  | matrix opening stop rows _ _ apart _ ih => exact allSpaced_iff.2 ⟨.apart _ apart, ih⟩

end Expr
end LinearCalc
