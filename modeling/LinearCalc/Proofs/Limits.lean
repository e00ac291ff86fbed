import LinearCalc.Parse
import LinearCalc.Proofs.Levels.Recursion
import LinearCalc.Proofs.Levels.Visits

set_option autoImplicit false

/-! # Texts within the limits

A text is within the limits when it is short enough and its tree is not too deep, and otherwise it
is rejected for one of the two reasons (`parseWithin_cases`). The depth of a tree is what is counted
off a list of pending nodes, in whichever order that is done, and it bounds the recursion of all
that follows the tree (`parseWithin_bounds`).
-/

namespace LinearCalc

/-! ## Limits -/

structure WithinLimits (text : String) : Prop where
  length : text.length ≤ 10000
  depth : (parseText text).1.depth ≤ 100

/-- A text is beyond the limits, for this reason. The depth of a text that is too long is not
looked at. -/
inductive BeyondLimits (text : String) : Rejection → Prop where
  | length (h : 10000 < text.length) : BeyondLimits text .tooLong
  | depth (hlength : text.length ≤ 10000) (h : 100 < (parseText text).1.depth) :
      BeyondLimits text .tooDeep

theorem BeyondLimits.not_withinLimits {text : String} {reason : Rejection}
    (h : BeyondLimits text reason) : ¬ WithinLimits text := by
  rintro ⟨hlength, hdepth⟩
  cases h <;> omega

theorem parseWithin_cases (text : String) :
    (∃ reason, BeyondLimits text reason ∧ parseWithin text = .error reason) ∨
      (WithinLimits text ∧ parseWithin text = .ok (parseText text)) := by
  unfold parseWithin
  simp only [Expr.levels_eq_depth]
  by_cases hlength : text.length ≤ maxLength
  · rw [if_neg (Nat.not_lt.2 hlength)]
    by_cases hdepth : (parseText text).1.depth ≤ maxLevels
    · exact .inr ⟨⟨hlength, hdepth⟩, if_neg (Nat.not_lt.2 hdepth)⟩
    · have hdeep := Nat.not_le.1 hdepth
      exact .inl ⟨.tooDeep, .depth hlength hdeep, if_pos hdeep⟩
  · have hlong := Nat.not_le.1 hlength
    exact .inl ⟨.tooLong, .length hlong, if_pos hlong⟩

theorem parseWithin_eq_tooDeep_iff (text : String) :
    parseWithin text = .error .tooDeep ↔ BeyondLimits text .tooDeep := by
  rcases parseWithin_cases text with ⟨reason, hbeyond, hparse⟩ | ⟨hwithin, hparse⟩
  · rw [hparse]
    constructor
    · intro h
      cases h
      exact hbeyond
    · intro h
      -- the length is checked first, so a text that is too long is never too deep
      cases hbeyond with
      | length hlong =>
          cases h with
          | depth hlength _ => omega
      | depth => rfl
  · rw [hparse]
    constructor
    · intro h
      cases h
    · intro h
      exact absurd hwithin h.not_withinLimits

open LinearCalc.Expr

/-- **The levels that are counted are the depth, and they bound the recursion.** Every count of the
levels of a tree ends, after no more visits than there are nodes, and finds the depth of the tree,
which is one more than the depth of the deepest child. A text is rejected as too deep exactly when
it is not too long and its tree has more than 100 levels. The tree of a text that is not rejected is
evaluated, and its formula is written, with calls nested at most as deep as the tree: a budget for
nested calls is spent just when there is a chain of so many of them, and there is none as long as
the tree is deep. -/
theorem parseWithin_bounds :
    (∀ e : Expr Float, e.depth = 1 + (e.children.map depth).foldr max 0 ∧ e.levels = e.depth ∧
      Visits e.size (.start e) ⟨e.levels, []⟩) ∧
    (∀ (e : Expr Float) n t, Visits n (.start e) t →
      n ≤ e.size ∧ (t.pending = [] → t.deepest = e.depth) ∧ (t.pending ≠ [] → ∃ u, Visit t u)) ∧
    (∀ text, parseWithin text = .error .tooDeep ↔
      text.length ≤ 10000 ∧ 100 < (parseText text).1.depth) ∧
    (∀ text tree diagnostics, parseWithin text = .ok (tree, diagnostics) → tree.depth ≤ 100) ∧
    (∀ (e : Expr Float) n, e.depth ≤ n →
      simplifyWithin n e = some e.simplify ∧ formulaWithin n e = some e.formula) ∧
    (∀ (e : Expr Float) n,
      (simplifyWithin n e = none ↔ ∃ calls, calls.length = n ∧ Nests Evaluates e calls) ∧
      (formulaWithin n e = none ↔
        ∃ calls, calls.length = n ∧ Nests (fun parent c => c ∈ parent.children) e calls)) ∧
    (∀ (e : Expr Float) calls,
      Nests Evaluates e calls ∨ Nests (fun parent c => c ∈ parent.children) e calls →
      calls.length < e.depth) := by
  refine ⟨?depth, ?count, ?tooDeep, ?accepted, ?recursion, ?spent, ?nested⟩
  case depth =>
    intro e
    exact ⟨e.depth_eq_foldr, e.levels_eq_depth, e.visits_levels⟩
  case count =>
    intro e n t hvisits
    obtain ⟨hsize, hdone⟩ := hvisits.count
    exact ⟨hsize, hdone, exists_visit⟩
  case tooDeep =>
    intro text
    rw [parseWithin_eq_tooDeep_iff]
    constructor
    · rintro (_ | ⟨hlength, hdepth⟩)
      exact ⟨hlength, hdepth⟩
    · rintro ⟨hlength, hdepth⟩
      exact .depth hlength hdepth
  case accepted =>
    intro text tree diagnostics hok
    rcases parseWithin_cases text with ⟨reason, -, hparse⟩ | ⟨hwithin, hparse⟩
    · rw [hparse] at hok
      cases hok
    · rw [hparse] at hok
      have htree : (parseText text).1 = tree := congrArg Prod.fst (Except.ok.inj hok)
      exact htree ▸ hwithin.depth
  case recursion =>
    intro e n hdepth
    exact ⟨simplifyWithin_eq hdepth, formulaWithin_eq hdepth⟩
  case spent =>
    intro e n
    exact ⟨budgeted_simplifyWithin.eq_none_iff n e, budgeted_formulaWithin.eq_none_iff n e⟩
  case nested =>
    rintro e calls (hcalls | hcalls)
    · exact hcalls.length_lt_depth Evaluates.depth_lt
    · exact hcalls.length_lt_depth depth_lt_of_mem_children

/-- A sum of two matrices, one of which has a power of a matrix for its element: five levels and
eight nodes. Two calls are nested below the one for the sum, since the sum evaluates the power, and
that the two. -/
theorem parseWithin_bounds_power :
    parseWithin "[[2]^1]+[3]" = .ok (parseText "[[2]^1]+[3]") ∧
    (parseText "[[2]^1]+[3]").1.depth ≤ 100 ∧
    Visits 8 (.start (parseText "[[2]^1]+[3]").1) ⟨5, []⟩ ∧ 8 ≤ (parseText "[[2]^1]+[3]").1.size ∧
    (parseText "[[2]^1]+[3]").1.depth ≤ 5 ∧
    simplifyWithin 5 (parseText "[[2]^1]+[3]").1 = some (parseText "[[2]^1]+[3]").1.simplify ∧
    ∃ calls, calls.length = 2 ∧ Nests Evaluates (parseText "[[2]^1]+[3]").1 calls := by
  have hdepth : (parseText "[[2]^1]+[3]").1.depth = 5 := by decide +kernel
  have hsize : (parseText "[[2]^1]+[3]").1.size = 8 := by decide +kernel
  have hok : parseWithin "[[2]^1]+[3]" = .ok (parseText "[[2]^1]+[3]") := by
    have hlevels : ¬ (parseText "[[2]^1]+[3]").1.levels > maxLevels := by
      rw [levels_eq_depth, hdepth]
      decide
    rw [parseWithin, if_neg (by decide)]
    exact if_neg hlevels
  have hvisits : Visits 8 (.start (parseText "[[2]^1]+[3]").1) ⟨5, []⟩ := by
    rw [← hsize, ← hdepth, ← levels_eq_depth]
    exact visits_levels _
  -- that two nested calls are not enough is computed; that they are nested then follows, and no
  -- chain of calls has to be written down
  have htwo : (simplifyWithin 2 (parseText "[[2]^1]+[3]").1).isNone = true := by decide +kernel
  obtain ⟨-, hcount, -, haccepted, hrecursion, hspent, -⟩ := parseWithin_bounds
  exact ⟨hok, haccepted _ _ _ hok, hvisits, (hcount _ _ _ hvisits).1, Nat.le_of_eq hdepth,
    (hrecursion _ 5 (Nat.le_of_eq hdepth)).1, (hspent _ 2).1.1 (Option.isNone_iff_eq_none.1 htwo)⟩

end LinearCalc
