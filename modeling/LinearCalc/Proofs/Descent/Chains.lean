import LinearCalc.Proofs.Descent.Settles
import LinearCalc.Proofs.Descent.Tiers
import LinearCalc.Proofs.Readers

set_option autoImplicit false

/-! # The machine reads chains like the parser

A routine of the machine follows a reader when it settles on what that reads, with a budget that is
enough for fewer tokens than it amounts to. A chain of the machine, read tier by tier, follows the
chain that is read as a whole and grouped afterwards (`climb_follows`).
-/

namespace LinearCalc
namespace Descent

namespace Context

def moveTo (c : Context) (place : Cursor) : Context :=
  { c with rest := place.rest, last := place.last }

def reached {β : Type} (c : Context) (r : Reading β) : Context :=
  (c.moveTo r.cursor).report r.diagnostics

@[simp] theorem reached_mk {β : Type} (rest : List Token) (last depth : Nat)
    (diagnostics : List Diagnostic) (r : Reading β) :
    reached ⟨rest, last, depth, diagnostics⟩ r
      = ⟨r.cursor.rest, r.cursor.last, depth, diagnostics ++ r.diagnostics⟩ := rfl

/-- Nothing was read. -/
@[simp] theorem reached_nil {β : Type} (c : Context) (value : β) :
    c.reached ⟨value, [], c.cursor⟩ = c := by
  simp [reached, moveTo, report, cursor]

@[simp] theorem reached_map {β γ : Type} (c : Context) (f : β → γ) (r : Reading β) :
    c.reached (r.map f) = c.reached r := rfl

@[simp] theorem rest_reached {β : Type} (c : Context) (r : Reading β) :
    (c.reached r).rest = r.cursor.rest := rfl

@[simp] theorem last_reached {β : Type} (c : Context) (r : Reading β) :
    (c.reached r).last = r.cursor.last := rfl

/-- Two readings, one after the other. -/
@[simp] theorem reached_reached {β γ : Type} (c : Context) (first : Reading β)
    (more : Reading γ) :
    (c.reached first).reached more = c.reached (more.precededBy first.diagnostics) := by
  simp [reached, moveTo, report]

end Context

/-- The routine settles on what is read from the same place. Its budget is enough for fewer than
`budget` tokens. -/
def Follows (routine : Routine) (budget depth : Nat)
    (read : Option Nat → Cursor → Reading (Expr Float)) : Prop :=
  ∀ after c, c.depth = depth → Settles (routine after c)
    ((read after c.cursor).value, c.reached (read after c.cursor)) (c.rest.length < budget)

variable {routine : Routine} {budget depth : Nat} {reader : OperandReader}

/-! ## Chains -/

/-- What was read of a chain of `n + 1` tiers leads to the chain that the links ahead complete. -/
structure Completes (reader : OperandReader) (n depth : Nat) (state result : Expr Float × Context) :
    Prop where
  depth : state.2.depth = depth
  next : ∀ token ∈ state.2.rest.head?, ∀ s, token.lexeme = .sign s → n ≤ s.operator.tier
  links : ∃ first before, (∀ l ∈ before, l.op.tier < n + 1) ∧
    state.1 = (assembleTo (n + 1) first before).1 ∧
    result = ((assembleTo (n + 1) first
        (before ++ (linksTo reader (n + 1) state.2.last state.2.rest).value)).1,
      state.2.reached (linksTo reader (n + 1) state.2.last state.2.rest))

theorem operatorRound_done {n : Nat} (state : Expr Float × Context)
    (h : ∀ s, state.2.word? = some (.sign s) → s.operator.tier ≠ n) :
    operatorRound routine n state = .ok (.done state) := by
  unfold operatorRound
  split
  · exact if_neg (h _ ‹_›)
  · rfl

theorem operatorRound_again {n : Nat} {token : Token} {s : Sign}
    (h : Follows routine budget depth (chainTo reader n)) (hsign : token.lexeme = .sign s)
    (htier : s.operator.tier = n) (left : Expr Float) (rest : List Token) (last : Nat)
    (diagnostics : List Diagnostic) :
    Settles (operatorRound routine n (left, ⟨token :: rest, last, depth, diagnostics⟩))
      (.again (left.join ⟨s.operator, token.span,
          (chainTo reader n (some token.stop) (.after token rest)).value⟩,
        Context.reached ⟨rest, token.stop, depth, diagnostics⟩
          (chainTo reader n (some token.stop) (.after token rest))))
      (rest.length < budget) := by
  have hword : Context.word? ⟨token :: rest, last, depth, diagnostics⟩ = some (.sign s) := by
    rw [← hsign]
    rfl
  simp only [operatorRound, hword, htier, if_true]
  have hright := h (some token.stop) ⟨rest, token.stop, depth, diagnostics⟩ rfl
  exact (Settles.ok _ _).bind (hright.bind (.ok _ _))

/-- The chain that the links ahead complete is the same after a further operator has been read. -/
theorem Completes.again {n : Nat} {token : Token} {s : Sign} (hsign : token.lexeme = .sign s)
    (htier : s.operator.tier = n) {left : Expr Float} {rest : List Token} {last : Nat}
    {diagnostics : List Diagnostic} {result : Expr Float × Context}
    (h : Completes reader n depth (left, ⟨token :: rest, last, depth, diagnostics⟩) result) :
    Completes reader n depth
      (left.join ⟨s.operator, token.span,
          (chainTo reader n (some token.stop) (.after token rest)).value⟩,
        Context.reached ⟨rest, token.stop, depth, diagnostics⟩
          (chainTo reader n (some token.stop) (.after token rest))) result := by
  obtain ⟨first, before, hbefore, hleft, hresult⟩ := h.links
  simp only [linksTo_sign reader hsign htier] at hleft hresult
  unfold chainTo
  dsimp only
  -- the right operand may be any reading from here on: only the links behind it are looked at
  generalize reader.read (some token.stop) (.after token rest) = right at hresult ⊢
  have htiers := linksTo_tiers reader n right.cursor.last right.cursor.rest
  have hnext := linksTo_next reader n right.cursor.last right.cursor.rest
  generalize linksTo reader n right.cursor.last right.cursor.rest = inner at *
  refine ⟨rfl, hnext, first, before ++ ⟨s.operator, token.span, right.value⟩ :: inner.value,
    ?_, ?_, ?_⟩
  -- the links before stay of lower tiers, and the new operator is of tier `n` itself
  · intro l hl
    rcases List.mem_append.1 hl with hl | hl
    · exact hbefore l hl
    · rcases List.mem_cons.1 hl with rfl | hl
      · exact Nat.lt_succ_of_le (Nat.le_of_eq htier)
      · exact Nat.lt_succ_of_lt (htiers l hl)
  · rw [assembleTo_succ_append first hbefore htier htiers, ← hleft]
    rfl
  · rw [hresult]
    simp

/-- An operator is read, or the chain of its tier is complete. -/
theorem operatorRound_advances {n : Nat} (h : Follows routine budget depth (chainTo reader n)) :
    Advances (operatorRound routine n) (fun state => state.2.rest.length)
      (Completes reader n depth) budget := by
  intro state result hstate
  -- either the next token is an operator of this tier, or the loop ends
  by_cases hagain : ∃ token rest s, state.2.rest = token :: rest ∧ token.lexeme = .sign s ∧
      s.operator.tier = n
  · left
    obtain ⟨left, ⟨_, last, depth', diagnostics⟩⟩ := state
    obtain ⟨token, rest, s, rfl, hsign, htier⟩ := hagain
    obtain rfl : depth' = depth := hstate.1
    have hless := (chainTo_suffix reader n (some token.stop) (.after token rest)).length_le
    refine ⟨_, (operatorRound_again h hsign htier left rest last diagnostics).mono ?_, ?_,
      hstate.again hsign htier⟩
    · intro hbudget
      exact Nat.lt_of_succ_lt hbudget
    · exact Nat.lt_succ_of_le hless
  · right
    obtain ⟨left, c⟩ := state
    have hother : ∀ token ∈ c.rest.head?, ∀ s, token.lexeme = .sign s →
        s.operator.tier ≠ n := by
      intro token htoken s hsign htier
      obtain ⟨rest, hrest⟩ := List.head?_eq_some_iff.1 htoken
      exact hagain ⟨token, rest, s, hrest, hsign, htier⟩
    have hround : operatorRound routine n (left, c) = .ok (.done (left, c)) := by
      refine operatorRound_done _ ?_
      intro s hword
      obtain ⟨token, htoken, hsign⟩ := Option.map_eq_some_iff.1 hword
      exact hother token htoken s hsign
    obtain ⟨first, before, hbefore, hleft, hresult⟩ := hstate.links
    -- no operator of a lower tier stands ahead by the invariant, and none of this tier by the case:
    -- so no links are left to read
    have hstop : linksTo reader (n + 1) c.last c.rest = ⟨[], [], c.cursor⟩ := by
      refine linksTo_stop reader c.last c.rest ?_
      intro token htoken s hsign
      have hle := hstate.next token htoken s hsign
      have hne := hother token htoken s hsign
      omega
    simp only [hstop, List.append_nil, Context.reached_nil, ← hleft] at hresult
    rw [hround, hresult]
    exact .ok _ _

/-- A chain of `n` tiers leads to the one of `n + 1` tiers. -/
theorem Completes.start (n : Nat) (after : Option Nat) (c : Context) (hc : c.depth = depth) :
    Completes reader n depth
      ((chainTo reader n after c.cursor).value, c.reached (chainTo reader n after c.cursor))
      ((chainTo reader (n + 1) after c.cursor).value,
        c.reached (chainTo reader (n + 1) after c.cursor)) := by
  have hsplit := linksTo_split reader (Nat.le_succ n) (reader.read after c.cursor).cursor.last
    (reader.read after c.cursor).cursor.rest
  unfold chainTo
  dsimp only
  generalize reader.read after c.cursor = first at hsplit ⊢
  have htiers := linksTo_tiers reader n first.cursor.last first.cursor.rest
  have hnext := linksTo_next reader n first.cursor.last first.cursor.rest
  -- the links of `n + 1` tiers are those of `n` tiers and what follows them, and the loop begins
  -- when the first part has been read
  rw [hsplit]
  generalize linksTo reader n first.cursor.last first.cursor.rest = inner at *
  refine ⟨hc, hnext, first.value, inner.value, ?_, ?_, ?_⟩
  · intro l hl
    exact Nat.lt_succ_of_lt (htiers l hl)
  · exact (assembleTo_succ_of_lt first.value htiers).symm
  · simp

/-- **A chain of some tiers is read like the parser reads it.** -/
theorem climb_follows (h : Follows routine budget depth reader.read) (n : Nat) :
    Follows (climb routine budget n) budget depth (chainTo reader n) := by
  induction n with
  | zero =>
      intro after c hc
      rw [chainTo_zero]
      exact h after c hc
  | succ n ih =>
      intro after c hc
      have hfirst := ih after c hc
      -- each tier is a loop around the tier below: its rounds advance by the induction hypothesis,
      -- and `Completes` is its invariant
      have hloop := loop_settles (operatorRound_advances ih) budget _ _
        (Completes.start n after c hc)
      have hle := (chainTo_suffix reader n after c.cursor).length_le
      refine hfirst.bind (hloop.mono ?_)
      intro hbudget
      have hless : (chainTo reader n after c.cursor).cursor.rest.length < budget :=
        Nat.lt_of_le_of_lt hle hbudget
      exact ⟨hless, hless⟩

end Descent
end LinearCalc
