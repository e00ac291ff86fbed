import LinearCalc.Parse.Reading

set_option autoImplicit false

/-! # Passing over an operand

Where brackets and minus signs are nested too deeply, one whole operand is passed over without
reading it: first the minus signs, then a single word or a bracket with everything up to the one
that closes it. Only the depth of brackets is watched, not whether their kinds agree.
-/

namespace LinearCalc

def skipMinuses (last : Nat) : List Token → Cursor
  | [] => ⟨[], last⟩
  | token :: rest =>
    if token.lexeme = .sign .minus then skipMinuses token.stop rest else ⟨token :: rest, last⟩

/-- Passes over words until no bracket is open any more, when `depth` of them are open now. Where
none is open, a word that cannot start an operand is left alone. -/
def skipBalanced (depth : Nat) (last : Nat) : List Token → Cursor
  | [] => ⟨[], last⟩
  | token :: rest =>
    if token.lexeme.opens then
      skipBalanced (depth + 1) token.stop rest
    else if token.lexeme.closes then
      match depth with
      | 0 => ⟨token :: rest, last⟩
      | 1 => .after token rest
      | depth + 2 => skipBalanced (depth + 1) token.stop rest
    else if depth = 0 then
      if token.lexeme.startsOperand then .after token rest else ⟨token :: rest, last⟩
    else
      skipBalanced depth token.stop rest

def skipOperand (c : Cursor) : Cursor :=
  let c := skipMinuses c.last c.rest
  skipBalanced 0 c.last c.rest

/-! ## What is left -/

theorem skipMinuses_suffix (last : Nat) (tokens : List Token) :
    (skipMinuses last tokens).rest <:+ tokens := by
  fun_induction skipMinuses last tokens with
  | case1 => exact List.suffix_refl _
  | case2 _ _ _ _ ih => exact ih.trans (List.suffix_cons _ _)
  | case3 => exact List.suffix_refl _

theorem skipBalanced_suffix (depth last : Nat) (tokens : List Token) :
    (skipBalanced depth last tokens).rest <:+ tokens := by
  fun_induction skipBalanced depth last tokens with
  | case1 => exact List.suffix_refl _
  | case2 _ _ _ _ _ ih => exact ih.trans (List.suffix_cons _ _)
  | case3 => exact List.suffix_refl _
  | case4 => exact List.suffix_cons _ _
  | case5 _ _ _ _ _ _ ih => exact ih.trans (List.suffix_cons _ _)
  | case6 => exact List.suffix_cons _ _
  | case7 => exact List.suffix_refl _
  | case8 _ _ _ _ _ _ _ ih => exact ih.trans (List.suffix_cons _ _)

theorem skipOperand_suffix (c : Cursor) : (skipOperand c).rest <:+ c.rest :=
  (skipBalanced_suffix _ _ _).trans (skipMinuses_suffix _ _)

/-- Where an operand starts, passing over it moves on. -/
theorem skipOperand_advances (token : Token) (rest : List Token) (last : Nat)
    (h : token.lexeme.startsOperand = true) :
    (skipOperand ⟨token :: rest, last⟩).rest <:+ rest := by
  -- a minus is passed by the first loop; any other start of an operand is left to the second, which
  -- never stops at its first token unless that closes a bracket
  by_cases hm : token.lexeme = .sign .minus
  · have hskip : skipMinuses last (token :: rest) = skipMinuses token.stop rest := by
      simp [skipMinuses, hm]
    show (skipBalanced 0 _ _).rest <:+ rest
    rw [hskip]
    exact skipOperand_suffix ⟨rest, token.stop⟩
  · have hskip : skipMinuses last (token :: rest) = ⟨token :: rest, last⟩ := by
      simp [skipMinuses, hm]
    show (skipBalanced 0 _ _).rest <:+ rest
    rw [hskip]
    have hcloses : token.lexeme.closes = false := by grind
    show (skipBalanced 0 last (token :: rest)).rest <:+ rest
    unfold skipBalanced
    split
    · exact skipBalanced_suffix _ _ _
    · simp [hcloses]

end LinearCalc
