import LinearCalc.Proofs.Descent.Operands

set_option autoImplicit false

/-! # Fewer and fewer tokens

Every round that goes on has taken a token (`itemRound_takes`, `operatorRound_takes`). Where a
routine is asked about fewer tokens only, it may be replaced by any other one that agrees on them
(`AgreeBelow`); runs and loops are replaced step by step (`bind_congr_ok`, `loop_congr`).
-/

namespace LinearCalc
namespace Descent

variable {budget : Nat}

/-! ## Rounds -/

/-- A round that goes on leaves fewer tokens. -/
def TakesTokens {σ τ : Type} (round : σ → Except Fault (Round σ τ)) (context : σ → Context) :
    Prop :=
  ∀ state state', round state = .ok (.again state') →
    (context state').rest.length < (context state).rest.length

/-- **The matrix loop takes a token in every round**, whatever that token is. -/
theorem itemRound_takes (budget : Nat) : TakesTokens (itemRound (expression budget)) Prod.snd := by
  intro state state' h
  exact (itemRound_advances (expression_follows budget state.2.depth)).lt ⟨rfl, rfl⟩ h

theorem minusRound_takes : TakesTokens minusRound id := by
  intro c c' h
  exact (minusRound_advances 0).lt rfl h

theorem balanceRound_takes : TakesTokens balanceRound Prod.snd := by
  intro state state' h
  exact (balanceRound_advances 0).lt rfl h

/-- **The loop of a tier takes a token in every round.** -/
theorem operatorRound_takes (budget n : Nat) :
    TakesTokens (operatorRound (climb (operand budget) budget n) n) Prod.snd := by
  intro state state' h
  obtain ⟨left, c⟩ := state
  have hfollows := climb_follows (operand_follows budget c.depth) n
  by_cases hsign : ∃ s, c.word? = some (.sign s) ∧ s.operator.tier = n
  · obtain ⟨s, hword, htier⟩ := hsign
    have hnext : ∀ token ∈ c.rest.head?, ∀ s', token.lexeme = .sign s' → n ≤ s'.operator.tier := by
      intro token htoken s' hs'
      have hword' : c.word? = some (.sign s') := Option.map_eq_some_iff.2 ⟨token, htoken, hs'⟩
      rw [hword] at hword'
      cases hword'
      exact Nat.le_of_eq htier.symm
    -- every state is the beginning of some chain, so the invariant of the loop holds here, too
    have hleft : left = (assembleTo (n + 1) left []).1 := by
      rw [assembleTo_nil]
    exact (operatorRound_advances hfollows).lt
      ⟨rfl, hnext, left, [], by simp, hleft, rfl⟩ h
  · rw [operatorRound_done] at h
    · cases h
    · intro s hword htier
      exact hsign ⟨s, hword, htier⟩

/-- Taking a token leaves one fewer. -/
theorem advance_lt {c c' : Context} {token : Token} (h : c.advance = .ok (token, c')) :
    c'.rest.length < c.rest.length := by
  obtain ⟨rest, last, depth, diagnostics⟩ := c
  cases rest with
  | nil => cases h
  | cons next rest =>
      cases h
      exact Nat.lt_succ_self _

/-! ## Replacing -/

theorem bind_congr_ok {α β : Type} {run : Except Fault α} {f g : α → Except Fault β}
    (h : ∀ a, run = .ok a → f a = g a) : (run >>= f) = (run >>= g) := by
  cases run with
  | error fault => rfl
  | ok a => exact h a rfl

/-- Loops whose rounds agree on the states they come to. -/
theorem loop_congr {σ τ : Type} {round round' : σ → Except Fault (Round σ τ)} (Comes : σ → Prop)
    (heq : ∀ state, Comes state → round state = round' state)
    (hagain : ∀ state state', Comes state → round' state = .ok (.again state') → Comes state')
    (budget : Nat) (state : σ) (h : Comes state) :
    loop round budget state = loop round' budget state := by
  induction budget generalizing state with
  | zero => rfl
  | succ budget ih =>
      rw [loop, loop, heq state h]
      refine bind_congr_ok ?_
      intro next hnext
      cases next with
      | again state' => exact ih state' (hagain state state' h hnext)
      | done result => rfl

/-- Two routines agree on contexts with fewer than `bound` tokens. -/
def AgreeBelow (bound : Nat) (routine routine' : Routine) : Prop :=
  ∀ after c, c.rest.length < bound → routine after c = routine' after c

end Descent
end LinearCalc
