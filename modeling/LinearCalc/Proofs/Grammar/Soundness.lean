import LinearCalc.Proofs.Grammar

set_option autoImplicit false

/-! # What is read without a finding has a derivation

If reading a chain gives no diagnostic, the tokens it took are those of a derivation that is not
nested too deeply (`chain_derives`). Only the tokens are followed here: that the value read is the
tree of the derivation follows from reading the derivation again.
-/

namespace LinearCalc

/-! ## Putting chains together -/

/-- An operand is a chain without operators. -/
theorem Phrase.exists_single (n : Nat) (o : Phrase 0) :
    ∃ q : Phrase n, q.tokens = o.tokens ∧ q.nesting = o.nesting := by
  induction n with
  | zero => exact ⟨o, rfl, rfl⟩
  | succ n ih =>
      obtain ⟨q, htokens, hnesting⟩ := ih
      refine ⟨.chain q .nil, ?_, ?_⟩
      · simp [htokens]
      · simp [hnesting]

/-- **An operand and an operator can be put before a chain.** They go down to the chain of the
level of the operator, in which the operand becomes the first phrase. -/
theorem Phrase.exists_push {n : Nat} (o : Phrase 0) (s : Sign) (start : Nat) (p : Phrase n)
    (hs : s.operator.tier < n) :
    ∃ q : Phrase n, q.tokens = o.tokens ++ s.token start :: p.tokens ∧
      q.nesting = max o.nesting p.nesting := by
  match p with
  | .chain (n := n) first more =>
      by_cases htier : s.operator.tier = n
      · obtain ⟨q, htokens, hnesting⟩ := Phrase.exists_single n o
        refine ⟨.chain q (.cons s htier start first more), ?_, ?_⟩
        · simp [htokens]
        · simp [hnesting]
      · obtain ⟨q, htokens, hnesting⟩ := Phrase.exists_push o s start first (by omega)
        refine ⟨.chain q more, ?_, ?_⟩
        · simp [htokens]
        · simp [hnesting, Nat.max_assoc]

theorem Operator.tier_lt (op : Operator) : op.tier < 4 := by
  cases op <;> decide

/-! ## Putting slots together -/

variable {m : Nat}

def Slot.occupied : Slot → Bool
  | .empty => false
  | .filled _ => true

/-- A slot and a separator before the slots of a matrix. -/
theorem Slots.exists_more (separator : Separator) {token : Token}
    (htoken : token.lexeme = .mark separator.mark) (slot : Slot) (hslot : slot.nesting ≤ m)
    {rest rest' : List Token}
    (h : ∃ slots : Slots, ∃ closing, slots.nesting ≤ m ∧
      rest = slots.tokens ++ Mark.closeBracket.token closing :: rest') :
    ∃ slots : Slots, ∃ closing, slots.nesting ≤ m ∧
      slot.tokens ++ token :: rest = slots.tokens ++ Mark.closeBracket.token closing :: rest' := by
  obtain ⟨slots, closing, hnesting, hmore⟩ := h
  refine ⟨.more slot separator token.start slots, closing, ?_, ?_⟩
  · rw [Slots.nesting]
    omega
  · rw [Slots.tokens, ← Token.eq_mark htoken, List.append_assoc, List.cons_append, hmore]

/-! ## Readers that take derivations -/

/-- What takes tokens without a finding takes those of a derivation that is nested no deeper than
there are readers. The links are an expression together with the operand before them; the items of a
matrix are its slots together with what the first slot holds so far, if none holds too much. -/
def derivation : ReaderInvariant where
  ofOperand n _ c r := r.diagnostics = [] →
    ∃ o : Phrase 0, o.nesting ≤ n ∧ c.rest = o.tokens ++ r.cursor.rest
  ofLinks n _ tokens r := r.diagnostics = [] → ∀ o : Phrase 0, o.nesting ≤ n →
    ∃ p : Sum, p.nesting ≤ n ∧ o.tokens ++ tokens = p.tokens ++ r.cursor.rest
  ofChain n c r := r.diagnostics = [] →
    ∃ p : Sum, p.nesting ≤ n ∧ c.rest = p.tokens ++ r.cursor.rest
  ofItems n _ tokens r := r.diagnostics = [] → ∀ slot : Slot, slot.nesting ≤ n →
    surplus slot.occupied r.value.1 = 0 →
    ∃ slots : Slots, ∃ closing, slots.nesting ≤ n ∧
      slot.tokens ++ tokens = slots.tokens ++ Mark.closeBracket.token closing :: r.cursor.rest

/-- **Every way of reading without a finding takes the tokens of a derivation.** -/
theorem derivation_kept : derivation.Kept where
  missing n after c _ hd := by
    cases after <;> cases hd
  transpose n after start rest last _ := ⟨.transpose start, Nat.zero_le n, rfl⟩
  number n after digits start rest last _ := ⟨.term (.number digits start), Nat.zero_le n, rfl⟩
  tooDeep after token rest last _ hd := nomatch hd
  negativeNumber n after minus digits start rest last _ :=
    ⟨.term (.negation minus (.number digits start)), Nat.succ_le_succ (Nat.zero_le n), rfl⟩
  negation n after minus token rest last right hnests _ hright hd := by
    obtain ⟨o, ho, htokens⟩ := hright hd
    match o with
    | .transpose start =>
        -- the mark cannot stand right after a minus
        obtain ⟨rfl, -⟩ := List.cons.inj htokens
        cases hnests
    | .term t => exact ⟨.term (.negation minus t), Nat.succ_le_succ ho, congrArg _ htokens⟩
  bareMinus n after minus rest last _ hd := nomatch hd
  closed n after opening closing rest more last inner _ hclosed hinner hd := by
    obtain ⟨p, hp, htokens⟩ := hinner hd
    refine ⟨.term (.paren opening p closing), Nat.succ_le_succ hp, ?_⟩
    rw [hclosed] at htokens
    rw [Phrase.tokens, Term.tokens, List.cons_append, List.append_assoc]
    exact congrArg _ htokens
  unclosed n after opening rest last inner _ _ _ hd := by
    simp [Reading.unclosed] at hd
  matrix n after opening rest last found _ hfound hd := by
    simp only [Reading.matrix, List.append_eq_nil_iff, List.replicate_eq_nil_iff] at hd
    obtain ⟨slots, closing, hnesting, htokens⟩ := hfound hd.1 .empty (Nat.zero_le n) hd.2
    refine ⟨.term (.matrix opening slots closing), Nat.succ_le_succ hnesting, ?_⟩
    rw [Phrase.tokens, Term.tokens, List.cons_append, List.append_assoc]
    exact congrArg _ htokens
  noLinks n last tokens _ _ o ho := by
    obtain ⟨p, htokens, hnesting⟩ := Phrase.exists_single 4 o
    exact ⟨p, by omega, by rw [htokens]⟩
  link n last s start rest right more _ _ hright hmore hd o ho := by
    simp only [Reading.link, Reading.diagnostics_precededBy, Reading.diagnostics_map,
      List.append_eq_nil_iff] at hd
    obtain ⟨o', ho', hrest⟩ := hright hd.1
    obtain ⟨p, hp, hlinks⟩ := hmore hd.2 o' ho'
    obtain ⟨q, htokens, hnesting⟩ := o.exists_push s start p s.operator.tier_lt
    refine ⟨q, by omega, ?_⟩
    have hrest' : rest = o'.tokens ++ right.cursor.rest := hrest
    rw [htokens, List.append_assoc, List.cons_append]
    show o.tokens ++ s.token start :: rest
      = o.tokens ++ s.token start :: (p.tokens ++ more.cursor.rest)
    rw [← hlinks, hrest']
  grouped n c first more _ _ hfirst hmore hd := by
    simp only [Reading.grouped, Reading.diagnostics_precededBy, Reading.diagnostics_map,
      List.append_eq_nil_iff] at hd
    obtain ⟨o, ho, hrest⟩ := hfirst hd.1
    obtain ⟨p, hp, hlinks⟩ := hmore hd.2 o ho
    exact ⟨p, hp, hrest.trans hlinks⟩
  noBracket n last hd := nomatch hd
  bracket n last closing rest _ slot hslot _ := ⟨.last slot, closing, hslot, rfl⟩
  separator n last token item rest more hseparates _ hmore hd slot hslot hs := by
    cases hseparates with
    | comma start =>
        exact Slots.exists_more .comma rfl slot hslot (hmore hd .empty (Nat.zero_le n) hs)
    | semicolon start =>
        exact Slots.exists_more .semicolon rfl slot hslot (hmore hd .empty (Nat.zero_le n) hs)
  stray n last start rest more _ _ hd := nomatch hd
  element n last token rest e more _ _ _ hchain hmore hd slot hslot hs := by
    simp only [Reading.element, Reading.item, Reading.diagnostics_precededBy,
      Reading.diagnostics_map, List.append_eq_nil_iff] at hd
    obtain ⟨p, hp, hrest⟩ := hchain hd.1
    simp only [Reading.element, Reading.item, Reading.value_precededBy, Reading.value_map, surplus,
      Nat.add_eq_zero_iff] at hs
    -- the slot was still empty, or the expression would be one too many
    cases slot with
    | filled content => exact absurd hs.1 (by simp [Slot.occupied])
    | empty =>
        obtain ⟨slots, closing, hnesting, hslots⟩ := hmore hd.2 (.filled p) hp hs.2
        exact ⟨slots, closing, hnesting, hrest.trans hslots⟩

/-- **A chain that is read without a finding has a derivation.** -/
theorem chain_derives (n : Nat) (c : Cursor) (hd : (chain (operandReader n) c).diagnostics = []) :
    ∃ p : Sum, p.nesting ≤ n ∧ c.rest = p.tokens ++ (chain (operandReader n) c).cursor.rest :=
  derivation_kept.chain n c hd

end LinearCalc
