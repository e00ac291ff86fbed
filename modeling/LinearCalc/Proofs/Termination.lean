import LinearCalc.Proofs.Descent.Returns
import LinearCalc.Proofs.Spans.Scanned

set_option autoImplicit false

/-! # Parsing ends

Parsing a text step by step always comes to an end, with the tree and the diagnostics of
`parseText`: as many rounds as the text has characters, and one more, are enough for every loop and
every recursion (`parsing_ends`).
-/

namespace LinearCalc
namespace Descent

variable {budget : Nat}

/-! ## Scanning -/

/-- There are no more tokens than characters. -/
theorem scan_length (offset : Nat) (text : List Char) :
    (scan offset text).length ≤ text.length := by
  fun_induction scan offset text with
  | case1 => exact Nat.le_refl _
  | case2 offset c rest hnone ih => exact Nat.le_succ_of_le ih
  | case3 offset c rest word hword ih =>
      rw [List.length_drop] at ih
      simp only [List.length_cons]
      omega

/-- Each round takes a word off the text, or a character that starts none. -/
theorem wordRound_advances (budget : Nat) :
    Advances wordRound (fun state => state.2.2.length)
      (fun state result => result = state.1 ++ scan state.2.1 state.2.2) budget := by
  intro state result h
  obtain ⟨found, offset, text⟩ := state
  subst h
  dsimp only
  -- what was found, followed by the scan of the rest, is the same in every round
  fun_cases scan offset text with
  | case1 =>
      right
      rw [List.append_nil]
      exact .ok _ _
  | case2 c rest hnone =>
      refine .inl ⟨(found, offset + 1, rest), ?_, Nat.lt_succ_self _, rfl⟩
      simp only [wordRound, hnone]
      exact .ok _ _
  | case3 c rest word hword =>
      obtain ⟨hpos, hfits⟩ := munch_length hword
      have hdrop : (c :: rest).drop word.length = rest.drop (word.length - 1) := by
        obtain ⟨length, hlength⟩ : ∃ length, word.length = length + 1 :=
          ⟨word.length - 1, by omega⟩
        rw [hlength]
        rfl
      refine .inl ⟨(found ++ [⟨word, offset⟩], offset + word.length,
        (c :: rest).drop word.length), ?_, ?_, ?_⟩
      · simp only [wordRound, hword]
        exact .ok _ _
      · rw [List.length_drop]
        simp only [List.length_cons]
        omega
      · rw [List.append_assoc, hdrop]
        rfl

/-! ## Parsing -/

theorem parse_settles (budget : Nat) (tokens : List Token) :
    Settles (parse budget tokens) (LinearCalc.parse tokens) (tokens.length < budget) := by
  have hwhole := expression_follows budget 0 none (.start tokens) rfl
  rw [chainTo_four] at hwhole
  refine hwhole.bind ?_
  show Settles _ (LinearCalc.parse tokens) (tokens.length < budget)
  have hcursor : (Context.start tokens).cursor = ⟨tokens, 0⟩ := rfl
  rw [hcursor, Nat.sub_zero]
  unfold LinearCalc.parse
  generalize chain (operandReader maxNesting) ⟨tokens, 0⟩ = whole
  obtain ⟨value, diagnostics, ⟨rest, last⟩⟩ := whole
  cases rest with
  | nil => exact .ok _ _
  | cons token rest => exact .ok _ _

theorem parseText_settles (text : String) :
    Settles (parseText budget text) (LinearCalc.parseText text) (text.length < budget) := by
  have hscan := loop_settles (wordRound_advances budget) budget ([], 0, text.toList) _ rfl
  have hparse := parse_settles budget (tokenize text)
  have hlength := scan_length 0 text.toList
  refine (hscan.mono ?_).bind (hparse.mono ?_)
  · intro hbudget
    rw [← String.length_toList] at hbudget
    exact ⟨hbudget, hbudget⟩
  · intro hbudget
    rw [← String.length_toList] at hbudget
    exact Nat.lt_of_le_of_lt hlength hbudget

/-- **Parsing ends on every text.** With a budget of more rounds than the text has characters the
run gives the parse, and no run of any budget takes a token where none is left. Every round of a
matrix, of a chain of operators and of passing over takes a token, and so does every step into a
bracket or behind a minus, which is read by a routine that is asked about fewer tokens only. -/
theorem parsing_ends :
    (∀ text budget, text.length < budget →
      parseText budget text = .ok (LinearCalc.parseText text)) ∧
    (∀ text budget, parseText budget text ≠ .error .pastEnd) ∧
    (∀ budget, TakesTokens (itemRound (expression budget)) Prod.snd) ∧
    (∀ budget n, TakesTokens (operatorRound (climb (operand budget) budget n) n) Prod.snd) ∧
    TakesTokens minusRound id ∧ TakesTokens balanceRound Prod.snd ∧
    (∀ budget other c, AgreeBelow c.rest.length other (operand budget) →
      nested other budget c = nested (operand budget) budget c) := by
  refine ⟨?_, ?_, itemRound_takes, operatorRound_takes, minusRound_takes, balanceRound_takes, ?_⟩
  · intro text budget hbudget
    exact (parseText_settles text).eq_ok hbudget
  · intro text budget
    exact (parseText_settles text).ne_pastEnd
  · intro budget other c h
    exact nested_congr c h

/-- An unclosed matrix, in which a bare minus is the last word. -/
theorem parsing_ends_unclosed :
    "[1,-".length < 5 ∧ parseText 5 "[1,-" = .ok (LinearCalc.parseText "[1,-") := by
  have hlength : "[1,-".length < 5 := by decide
  exact ⟨hlength, parsing_ends.1 "[1,-" 5 hlength⟩

end Descent
end LinearCalc
