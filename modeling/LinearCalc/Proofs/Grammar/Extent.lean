import LinearCalc.Proofs.Grammar

set_option autoImplicit false

/-! # What derivations cover

Every phrase spells out at least one token, the first of which starts an operand
(`Phrase.tokens_eq_cons`). Put side by side, phrases cover the text from the start of the first to
the end of the last (`extent_append`).
-/

namespace LinearCalc

/-! ## First tokens -/

/-- A term spells out a token that starts an operand, and others after it. -/
theorem Term.tokens_eq_cons (t : Term) :
    ∃ token rest, t.tokens = token :: rest ∧ token.lexeme.startsOperand = true := by
  cases t with
  | number digits start => exact ⟨_, _, rfl, rfl⟩
  | negation minus body => exact ⟨_, _, rfl, rfl⟩
  | paren opening inner closing => exact ⟨_, _, rfl, rfl⟩
  | matrix opening slots closing => exact ⟨_, _, rfl, rfl⟩

/-- A phrase spells out a token that starts an operand, and others after it. -/
theorem Phrase.tokens_eq_cons {n : Nat} (p : Phrase n) :
    ∃ token rest, p.tokens = token :: rest ∧ token.lexeme.startsOperand = true := by
  cases p with
  | transpose start => exact ⟨_, _, rfl, rfl⟩
  | term t => exact t.tokens_eq_cons
  | chain first more =>
      obtain ⟨token, rest, htokens, hstarts⟩ := first.tokens_eq_cons
      exact ⟨token, rest ++ more.tokens, by rw [Phrase.tokens, htokens]; rfl, hstarts⟩

theorem Term.tokens_ne_nil (t : Term) : t.tokens ≠ [] := by
  obtain ⟨token, rest, htokens, -⟩ := t.tokens_eq_cons
  simp [htokens]

theorem Phrase.tokens_ne_nil {n : Nat} (p : Phrase n) : p.tokens ≠ [] := by
  obtain ⟨token, rest, htokens, -⟩ := p.tokens_eq_cons
  simp [htokens]

/-! ## Extents -/

/-- Two lists of tokens together cover what lies from the start of the first to the end of the
second. -/
theorem extent_append {a b : List Token} (ha : a ≠ []) (hb : b ≠ []) :
    extent (a ++ b) = ⟨(extent a).start, (extent b).stop⟩ := by
  simp [extent, List.head?_append, List.head?_eq_some_head ha, List.getLast?_append,
    List.getLast?_eq_some_getLast hb]

theorem extent_cons (token : Token) {b : List Token} (hb : b ≠ []) :
    extent (token :: b) = ⟨token.start, (extent b).stop⟩ :=
  extent_append (List.cons_ne_nil token []) hb

/-- The extent of some tokens stops where the last of them does. -/
theorem extent_concat_stop (a : List Token) (token : Token) :
    (extent (a ++ [token])).stop = token.stop := by
  simp [extent]

/-! ## Where tokens stop -/

/-- Where the last of some tokens stops, or `last` when there are none. -/
def stopAfter (last : Nat) (tokens : List Token) : Nat :=
  (tokens.getLast?.map Token.stop).getD last

theorem stopAfter_append (last : Nat) (a b : List Token) :
    stopAfter last (a ++ b) = stopAfter (stopAfter last a) b := by
  cases hb : b.getLast? <;> simp [stopAfter, List.getLast?_append, hb]

theorem stopAfter_cons (last : Nat) (token : Token) (tokens : List Token) :
    stopAfter last (token :: tokens) = stopAfter token.stop tokens :=
  stopAfter_append last [token] tokens

theorem extent_stop {tokens : List Token} (h : tokens ≠ []) (last : Nat) :
    (extent tokens).stop = stopAfter last tokens := by
  simp [extent, stopAfter, List.getLast?_eq_some_getLast h]

end LinearCalc
