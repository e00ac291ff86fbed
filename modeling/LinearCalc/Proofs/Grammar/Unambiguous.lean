import LinearCalc.Proofs.Grammar.Extent

set_option autoImplicit false

/-! # The grammar is unambiguous

No two derivations spell out the same tokens (`Phrase.tokens_injective`). The proof compares two
derivations that spell out the beginnings of one list of tokens: they are equal, and so is what is
left, provided that neither could be continued there (`Stops`). Operands can never be continued.
-/

namespace LinearCalc

/-- A phrase of height `n` cannot go on here: there is no operator of one of its levels. -/
def Stops (n : Nat) (tokens : List Token) : Prop :=
  ∀ token ∈ tokens.head?, ∀ s, token.lexeme = .sign s → n ≤ s.operator.tier

@[simp] theorem stops_nil (n : Nat) : Stops n [] := by simp [Stops]

@[simp] theorem stops_mark (n : Nat) (m : Mark) (start : Nat) (rest : List Token) :
    Stops n (m.token start :: rest) := by
  simp [Stops]

theorem Stops.mono {k n : Nat} {tokens : List Token} (h : Stops n tokens) (hk : k ≤ n) :
    Stops k tokens :=
  fun token htoken s hs => Nat.le_trans hk (h token htoken s hs)

/-- Inside a chain a phrase stops at the operators of the chain. -/
theorem Tail.stops_append {n : Nat} (t : Tail n) {rest : List Token} (h : Stops (n + 1) rest) :
    Stops n (t.tokens ++ rest) := by
  cases t with
  | nil => exact h.mono (Nat.le_succ n)
  | cons sign level start operand more =>
      intro token htoken s hs
      simp only [Tail.tokens, List.cons_append, List.head?_cons, Option.mem_some_iff] at htoken
      subst htoken
      cases hs
      exact Nat.le_of_eq level.symm

/-- A phrase does not begin with a mark that ends a slot. -/
theorem Phrase.append_ne_mark {n : Nat} (p : Phrase n) {m : Mark}
    (hm : (Lexeme.mark m).startsOperand = false) (start : Nat) (r₁ r₂ : List Token) :
    p.tokens ++ r₁ ≠ m.token start :: r₂ := by
  obtain ⟨token, rest, htokens, hstarts⟩ := p.tokens_eq_cons
  rw [htokens]
  rintro ⟨⟩
  exact absurd (hstarts.symm.trans hm) (by decide)

theorem Separator.not_startsOperand (s : Separator) :
    (Lexeme.mark s.mark).startsOperand = false := by
  cases s <;> rfl

theorem Separator.mark_ne_close (s : Separator) : s.mark ≠ .closeBracket := by
  cases s <;> simp [Separator.mark]

theorem Separator.mark_injective {s₁ s₂ : Separator} (h : s₁.mark = s₂.mark) : s₁ = s₂ := by
  cases s₁ <;> cases s₂ <;> first | rfl | cases h

mutual

/-- Terms that spell out the beginning of the same tokens are equal. -/
theorem Term.eq_of_append (t₁ t₂ : Term) (r₁ r₂ : List Token)
    (h : t₁.tokens ++ r₁ = t₂.tokens ++ r₂) : t₁ = t₂ ∧ r₁ = r₂ := by
  -- the first token tells which kind of term it is, and closing brackets tell where it ends
  match t₁, t₂ with
  | .number digits₁ start₁, .number digits₂ start₂ =>
      simp only [Term.tokens, List.cons_append, List.nil_append, List.cons.injEq, Token.mk.injEq,
        Lexeme.number.injEq] at h
      obtain ⟨⟨rfl, rfl⟩, rfl⟩ := h
      exact ⟨rfl, rfl⟩
  | .negation minus₁ body₁, .negation minus₂ body₂ =>
      simp only [Term.tokens, List.cons_append, List.cons.injEq, Sign.token_inj, true_and] at h
      obtain ⟨rfl, hbody⟩ := h
      obtain ⟨rfl, hrest⟩ := body₁.eq_of_append body₂ r₁ r₂ hbody
      exact ⟨rfl, hrest⟩
  | .paren opening₁ inner₁ closing₁, .paren opening₂ inner₂ closing₂ =>
      simp only [Term.tokens, List.cons_append, List.append_assoc, List.nil_append,
        List.cons.injEq, Mark.token_inj, true_and] at h
      obtain ⟨rfl, hinner⟩ := h
      obtain ⟨rfl, hrest⟩ := inner₁.eq_of_append inner₂ _ _ (stops_mark _ _ _ _)
        (stops_mark _ _ _ _) hinner
      cases hrest
      exact ⟨rfl, rfl⟩
  | .matrix opening₁ slots₁ closing₁, .matrix opening₂ slots₂ closing₂ =>
      simp only [Term.tokens, List.cons_append, List.append_assoc, List.nil_append,
        List.cons.injEq, Mark.token_inj, true_and] at h
      obtain ⟨rfl, hslots⟩ := h
      obtain ⟨rfl, rfl, hrest⟩ := slots₁.eq_of_append slots₂ closing₁ closing₂ r₁ r₂ hslots
      exact ⟨rfl, hrest⟩
  | .number _ _, .negation _ _ | .number _ _, .paren _ _ _ | .number _ _, .matrix _ _ _
  | .negation _ _, .number _ _ | .negation _ _, .paren _ _ _ | .negation _ _, .matrix _ _ _
  | .paren _ _ _, .number _ _ | .paren _ _ _, .negation _ _ | .paren _ _ _, .matrix _ _ _
  | .matrix _ _ _, .number _ _ | .matrix _ _ _, .negation _ _ | .matrix _ _ _, .paren _ _ _ =>
      simp [Sign.token, Mark.token] at h

/-- Phrases that spell out the beginning of the same tokens, and stop there, are equal. -/
theorem Phrase.eq_of_append {n : Nat} (p₁ p₂ : Phrase n) (r₁ r₂ : List Token)
    (h₁ : Stops n r₁) (h₂ : Stops n r₂) (h : p₁.tokens ++ r₁ = p₂.tokens ++ r₂) :
    p₁ = p₂ ∧ r₁ = r₂ := by
  match p₁, p₂ with
  | .transpose start₁, .transpose start₂ =>
      cases h
      exact ⟨rfl, rfl⟩
  | .term t₁, .term t₂ =>
      obtain ⟨rfl, hrest⟩ := t₁.eq_of_append t₂ r₁ r₂ h
      exact ⟨rfl, hrest⟩
  | .transpose _, .term t | .term t, .transpose _ =>
      cases t <;> simp [Mark.token, Sign.token] at h
  | .chain first₁ more₁, .chain first₂ more₂ =>
      -- the operand goes on as long as its tier allows: what the tail begins with stops it on both
      -- sides
      rw [Phrase.tokens, Phrase.tokens, List.append_assoc, List.append_assoc] at h
      obtain ⟨rfl, hmore⟩ := first₁.eq_of_append first₂ _ _ (more₁.stops_append h₁)
        (more₂.stops_append h₂) h
      obtain ⟨rfl, hrest⟩ := more₁.eq_of_append more₂ r₁ r₂ h₁ h₂ hmore
      exact ⟨rfl, hrest⟩

/-- The same for what follows the first phrase of a chain. -/
theorem Tail.eq_of_append {n : Nat} (t₁ t₂ : Tail n) (r₁ r₂ : List Token)
    (h₁ : Stops (n + 1) r₁) (h₂ : Stops (n + 1) r₂) (h : t₁.tokens ++ r₁ = t₂.tokens ++ r₂) :
    t₁ = t₂ ∧ r₁ = r₂ := by
  match t₁, t₂ with
  | .nil, .nil => exact ⟨rfl, h⟩
  | .nil, .cons sign level start operand more =>
      -- one side ends where an operator of this tier follows, which is against `Stops`
      subst h
      exact absurd (h₁ _ rfl sign rfl) (by omega)
  | .cons sign level start operand more, .nil =>
      subst h
      exact absurd (h₂ _ rfl sign rfl) (by omega)
  | .cons sign₁ level₁ start₁ operand₁ more₁, .cons sign₂ level₂ start₂ operand₂ more₂ =>
      simp only [Tail.tokens, List.cons_append, List.append_assoc, List.cons.injEq,
        Sign.token_inj] at h
      obtain ⟨⟨rfl, rfl⟩, hoperand⟩ := h
      obtain ⟨rfl, hmore⟩ := operand₁.eq_of_append operand₂ _ _ (more₁.stops_append h₁)
        (more₂.stops_append h₂) hoperand
      obtain ⟨rfl, hrest⟩ := more₁.eq_of_append more₂ r₁ r₂ h₁ h₂ hmore
      exact ⟨rfl, hrest⟩

/-- The same for slots that end here. -/
theorem Slot.eq_of_append (s₁ s₂ : Slot) {m₁ m₂ : Mark} (start₁ start₂ : Nat) (r₁ r₂ : List Token)
    (h₁ : (Lexeme.mark m₁).startsOperand = false) (h₂ : (Lexeme.mark m₂).startsOperand = false)
    (h : s₁.tokens ++ m₁.token start₁ :: r₁ = s₂.tokens ++ m₂.token start₂ :: r₂) :
    s₁ = s₂ ∧ m₁ = m₂ ∧ start₁ = start₂ ∧ r₁ = r₂ := by
  match s₁, s₂ with
  | .empty, .empty =>
      cases h
      exact ⟨rfl, rfl, rfl, rfl⟩
  | .empty, .filled p => exact absurd h.symm (p.append_ne_mark h₁ _ _ _)
  | .filled p, .empty => exact absurd h (p.append_ne_mark h₂ _ _ _)
  | .filled p₁, .filled p₂ =>
      obtain ⟨rfl, hrest⟩ := p₁.eq_of_append p₂ _ _ (stops_mark _ _ _ _) (stops_mark _ _ _ _) h
      cases hrest
      exact ⟨rfl, rfl, rfl, rfl⟩

/-- The same for the slots of a matrix with the bracket that closes them. -/
theorem Slots.eq_of_append (s₁ s₂ : Slots) (closing₁ closing₂ : Nat) (r₁ r₂ : List Token)
    (h : s₁.tokens ++ Mark.closeBracket.token closing₁ :: r₁
      = s₂.tokens ++ Mark.closeBracket.token closing₂ :: r₂) :
    s₁ = s₂ ∧ closing₁ = closing₂ ∧ r₁ = r₂ := by
  match s₁, s₂ with
  | .last slot₁, .last slot₂ =>
      obtain ⟨rfl, -, rfl, rfl⟩ := slot₁.eq_of_append slot₂ _ _ _ _ rfl rfl h
      exact ⟨rfl, rfl, rfl⟩
  -- no separator is a closing bracket, so both lists of slots end at once
  | .last slot₁, .more slot₂ separator₂ start₂ rest₂ =>
      rw [Slots.tokens, Slots.tokens, List.append_assoc] at h
      obtain ⟨-, hmark, -, -⟩ :=
        slot₁.eq_of_append slot₂ _ _ _ _ rfl separator₂.not_startsOperand h
      exact absurd hmark.symm separator₂.mark_ne_close
  | .more slot₁ separator₁ start₁ rest₁, .last slot₂ =>
      rw [Slots.tokens, Slots.tokens, List.append_assoc] at h
      obtain ⟨-, hmark, -, -⟩ :=
        slot₁.eq_of_append slot₂ _ _ _ _ separator₁.not_startsOperand rfl h
      exact absurd hmark separator₁.mark_ne_close
  | .more slot₁ separator₁ start₁ rest₁, .more slot₂ separator₂ start₂ rest₂ =>
      rw [Slots.tokens, Slots.tokens, List.append_assoc, List.append_assoc] at h
      obtain ⟨rfl, hmark, rfl, hrest⟩ := slot₁.eq_of_append slot₂ _ _ _ _
        separator₁.not_startsOperand separator₂.not_startsOperand h
      obtain rfl := Separator.mark_injective hmark
      obtain ⟨rfl, rfl, rfl⟩ := rest₁.eq_of_append rest₂ closing₁ closing₂ r₁ r₂ hrest
      exact ⟨rfl, rfl, rfl⟩

end

/-- **No two derivations spell out the same tokens.** -/
theorem Phrase.tokens_injective {p₁ p₂ : Sum} (h : p₁.tokens = p₂.tokens) : p₁ = p₂ := by
  refine (p₁.eq_of_append p₂ [] [] (stops_nil 4) (stops_nil 4) ?_).1
  rw [h]

end LinearCalc
