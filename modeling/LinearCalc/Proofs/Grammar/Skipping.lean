import LinearCalc.Proofs.Grammar.Extent

set_option autoImplicit false

/-! # Derivations are passed over

`skipOperand` does not know the grammar: it passes over minus signs and then counts brackets. In
front of a term it still ends where the term does (`skipOperand_tokens`), because what a derivation
spells out between two brackets is balanced (`Phrase.balanced_tokens`), and the count of open
brackets is the same before and after balanced tokens (`skipBalanced_balanced`).
-/

namespace LinearCalc

/-! ## Balanced tokens -/

/-- Every bracket that some tokens open is closed in them, and every bracket that they close is
opened in them before. -/
inductive Balanced : List Token → Prop where
  | nil : Balanced []
  | word (token : Token) (opens : token.lexeme.opens = false)
      (closes : token.lexeme.closes = false) : Balanced [token]
  | append {before after : List Token} (left : Balanced before) (right : Balanced after) :
      Balanced (before ++ after)
  | enclosed (opening closing : Token) {inner : List Token}
      (opens : opening.lexeme.opens = true) (closes : closing.lexeme.closes = true)
      (content : Balanced inner) : Balanced (opening :: (inner ++ [closing]))

theorem Balanced.cons {token : Token} {tokens : List Token}
    (opens : token.lexeme.opens = false) (closes : token.lexeme.closes = false)
    (h : Balanced tokens) : Balanced (token :: tokens) :=
  (Balanced.word token opens closes).append h

/-- No word both opens and closes a bracket. -/
theorem Lexeme.opens_of_closes {l : Lexeme} (h : l.closes = true) : l.opens = false := by
  cases l with
  | number digits => rfl
  | sign s => rfl
  | mark m => cases m <;> first | rfl | exact absurd h (by decide)

/-- A bracket is opened. -/
theorem skipBalanced_opening (depth last : Nat) (opening : Token) (rest : List Token)
    (opens : opening.lexeme.opens = true) :
    skipBalanced depth last (opening :: rest) = skipBalanced (depth + 1) opening.stop rest := by
  rw [skipBalanced.eq_def]
  exact if_pos opens

/-- A bracket is closed. If it was the last one open, nothing more is passed over. -/
theorem skipBalanced_closing (depth last : Nat) (closing : Token) (rest : List Token)
    (closes : closing.lexeme.closes = true) :
    skipBalanced (depth + 1) last (closing :: rest)
      = if depth = 0 then .after closing rest else skipBalanced depth closing.stop rest := by
  have hopens := Lexeme.opens_of_closes closes
  cases depth with
  | zero => simp [skipBalanced, hopens, closes]
  | succ depth => simp [skipBalanced, hopens, closes]

/-- **Balanced tokens inside an open bracket are passed over** without a change of depth. -/
theorem skipBalanced_balanced {tokens : List Token} (h : Balanced tokens)
    (depth last : Nat) (rest : List Token) :
    skipBalanced (depth + 1) last (tokens ++ rest)
      = skipBalanced (depth + 1) (stopAfter last tokens) rest := by
  induction h generalizing depth last rest with
  | nil => rfl
  | word token opens closes =>
      rw [List.singleton_append, skipBalanced.eq_def]
      simp [opens, closes, stopAfter]
  | append left right ihleft ihright =>
      rw [List.append_assoc, ihleft, ihright, stopAfter_append]
  | @enclosed opening closing inner opens closes content ih =>
      rw [List.cons_append, skipBalanced_opening _ _ _ _ opens, List.append_assoc, ih,
        List.singleton_append, skipBalanced_closing _ _ _ _ closes, if_neg (Nat.succ_ne_zero _),
        stopAfter_cons, stopAfter_append]
      rfl

/-! ## What derivations spell out -/

mutual

theorem Term.balanced_tokens (t : Term) : Balanced t.tokens := by
  match t with
  | .number digits start => exact .word _ rfl rfl
  | .negation minus body => exact .cons rfl rfl body.balanced_tokens
  | .paren opening inner closing => exact .enclosed _ _ rfl rfl inner.balanced_tokens
  | .matrix opening slots closing => exact .enclosed _ _ rfl rfl slots.balanced_tokens

/-- **The tokens of a phrase are balanced.** -/
theorem Phrase.balanced_tokens {n : Nat} (p : Phrase n) : Balanced p.tokens := by
  match p with
  | .transpose start => exact .word _ rfl rfl
  | .term t => exact t.balanced_tokens
  | .chain first more => exact .append first.balanced_tokens more.balanced_tokens

theorem Tail.balanced_tokens {n : Nat} (t : Tail n) : Balanced t.tokens := by
  match t with
  | .nil => exact .nil
  | .cons sign level start operand more =>
      exact .cons rfl rfl (.append operand.balanced_tokens more.balanced_tokens)

theorem Slot.balanced_tokens (slot : Slot) : Balanced slot.tokens := by
  match slot with
  | .empty => exact .nil
  | .filled content => exact content.balanced_tokens

theorem Slots.balanced_tokens (slots : Slots) : Balanced slots.tokens := by
  match slots with
  | .last slot => exact slot.balanced_tokens
  | .more slot separator start rest =>
      refine .append slot.balanced_tokens (.cons ?_ ?_ rest.balanced_tokens)
      · cases separator <;> rfl
      · cases separator <;> rfl

end

/-! ## Passing over a term -/

/-- A minus in front of an operand is passed over. -/
theorem skipOperand_minus (minus last : Nat) (rest : List Token) :
    skipOperand ⟨Sign.minus.token minus :: rest, last⟩
      = skipOperand ⟨rest, (Sign.minus.token minus).stop⟩ := by
  simp [skipOperand, skipMinuses, Sign.token]

/-- A bracket with balanced tokens in it is passed over. -/
theorem skipOperand_enclosed (opening closing : Token) {inner : List Token}
    (opens : opening.lexeme.opens = true) (closes : closing.lexeme.closes = true)
    (content : Balanced inner) (rest : List Token) (last : Nat) :
    skipOperand ⟨opening :: (inner ++ [closing]) ++ rest, last⟩ = .after closing rest := by
  have hminus : opening.lexeme ≠ .sign .minus := by
    intro h
    simp [h, Lexeme.opens] at opens
  show skipBalanced 0 _ _ = _
  rw [List.cons_append, skipMinuses, if_neg hminus, List.append_assoc, List.singleton_append,
    skipBalanced_opening _ _ _ _ opens, skipBalanced_balanced content,
    skipBalanced_closing _ _ _ _ closes, if_pos rfl]

/-- **Passing over a term ends right after it.** -/
theorem skipOperand_tokens (t : Term) (rest : List Token) (last : Nat) :
    skipOperand ⟨t.tokens ++ rest, last⟩ = ⟨rest, stopAfter last t.tokens⟩ := by
  match t with
  | .number digits start => rfl
  | .negation minus body =>
      rw [Term.tokens, List.cons_append, skipOperand_minus, skipOperand_tokens body,
        stopAfter_cons]
  | .paren opening inner closing =>
      rw [Term.tokens, skipOperand_enclosed _ _ rfl rfl inner.balanced_tokens, stopAfter_cons,
        stopAfter_append]
      rfl
  | .matrix opening slots closing =>
      rw [Term.tokens, skipOperand_enclosed _ _ rfl rfl slots.balanced_tokens, stopAfter_cons,
        stopAfter_append]
      rfl

/-- A term that is passed over leaves a placeholder as wide as it is. -/
theorem passOver_tokens (t : Term) (rest : List Token) (last : Nat) :
    passOver ⟨t.tokens ++ rest, last⟩
      = ⟨.placeholder (extent t.tokens), [.nestedTooDeeply],
          ⟨rest, stopAfter last t.tokens⟩⟩ := by
  have hposition : Cursor.position ⟨t.tokens ++ rest, last⟩ = (extent t.tokens).start := by
    obtain ⟨token, more, htokens, -⟩ := t.tokens_eq_cons
    rw [htokens]
    rfl
  have hstop := extent_stop t.tokens_ne_nil last
  rw [passOver, skipOperand_tokens, hposition, ← hstop]

end LinearCalc
