import LinearCalc.Proofs.Lookahead.Readers
import LinearCalc.Proofs.Spans

set_option autoImplicit false

/-! # One token ahead

When the tokens of a text go on behind the expression, the parser has looked at the first of them
and at nothing behind it, and the only thing it has to say about it is that it is unexpected
(`parse_lookahead`).
-/

namespace LinearCalc

/-- What is left of a list of tokens when an expression has been read from it. -/
def unread (tokens : List Token) : List Token :=
  (chain (operandReader maxNesting) ⟨tokens, 0⟩).cursor.rest

/-! ## What comes next -/

/-- Links stop only where no sign comes next. -/
theorem links_noSign (operand : OperandReader) (last : Nat) (tokens : List Token) :
    NoSign (links operand last tokens).cursor.rest := by
  fun_induction links operand last tokens with
  | case1 last => exact noSign_nil
  | case2 last token rest s hsign right more ih => exact ih
  | case3 last token rest hno => simpa [NoSign] using hno

theorem unread_noSign (tokens : List Token) : NoSign (unread tokens) := links_noSign _ _ _

/-! ## What is unexpected -/

/-- Nothing is found unexpected but closing parentheses. -/
def OnlyStrays (found : List Diagnostic) : Prop :=
  ∀ word, .unexpected word ∈ found → word = .mark .closeParen

section OnlyStrays

variable {found found' : List Diagnostic} {finding : Diagnostic}

@[simp] theorem onlyStrays_nil : OnlyStrays [] := by simp [OnlyStrays]

@[simp] theorem onlyStrays_append :
    OnlyStrays (found ++ found') ↔ OnlyStrays found ∧ OnlyStrays found' := by
  simp [OnlyStrays, or_imp, forall_and]

@[simp] theorem onlyStrays_singleton :
    OnlyStrays [finding] ↔ ∀ word, finding = .unexpected word → word = .mark .closeParen := by
  simp [OnlyStrays, eq_comm]

end OnlyStrays

def strays : ReaderInvariant where
  ofOperand _ _ _ r := OnlyStrays r.diagnostics
  ofLinks _ _ _ r := OnlyStrays r.diagnostics
  ofChain _ _ r := OnlyStrays r.diagnostics
  ofItems _ _ _ r := OnlyStrays r.diagnostics

/-- **No way of reading finds anything unexpected but a closing parenthesis**, and this only between
the brackets of a matrix. -/
theorem strays_kept : strays.Kept where
  -- only `stray` reports what is unexpected; all other clauses pass on what was found inside
  missing n after c _ := by
    cases after <;> simp [strays, missingOperand]
  transpose n after start rest last := onlyStrays_nil
  number n after digits start rest last := onlyStrays_nil
  tooDeep after token rest last _ := by simp [strays, passOver]
  negativeNumber n after minus digits start rest last := onlyStrays_nil
  negation n after minus token rest last right _ _ hright := hright
  bareMinus n after minus rest last _ := by simp [strays]
  closed n after opening closing rest more last inner _ _ hinner := hinner
  unclosed n after opening rest last inner _ _ hinner :=
    onlyStrays_append.2 ⟨hinner, by simp⟩
  matrix n after opening rest last found _ hfound := by
    refine onlyStrays_append.2 ⟨hfound, ?_⟩
    intro word hword
    cases List.eq_of_mem_replicate hword
  noLinks n last tokens _ := onlyStrays_nil
  link n last s start rest right more _ _ hright hmore :=
    onlyStrays_append.2 ⟨hright, hmore⟩
  grouped n c first more _ _ hfirst hmore := onlyStrays_append.2 ⟨hfirst, hmore⟩
  noBracket n last := by simp [strays]
  bracket n last closing rest := onlyStrays_nil
  separator n last token item rest more _ _ hmore := hmore
  stray n last start rest more _ hmore := onlyStrays_append.2 ⟨by simp, hmore⟩
  element n last token rest e more _ _ _ hchain hmore :=
    onlyStrays_append.2 ⟨hchain, hmore⟩

/-! ## Parsing -/

/-- What is found wrong with the expression itself, whatever is left behind it. -/
def expressionFindings (tokens : List Token) : List Diagnostic :=
  (chain (operandReader maxNesting) ⟨tokens, 0⟩).diagnostics

theorem parse_diagnostics (tokens : List Token) :
    (parse tokens).2 = expressionFindings tokens ++
      (unread tokens).head?.toList.map (fun token => .unexpected token.lexeme) := by
  unfold parse expressionFindings unread
  generalize chain (operandReader maxNesting) ⟨tokens, 0⟩ = whole
  obtain ⟨value, found, rest, last⟩ := whole
  cases rest with
  | nil => simp
  | cons token rest => rfl

/-- What is left unread may be replaced by other tokens with the same first one, or taken away: the
rest is read alike, and what stands there instead is left unread. -/
theorem parse_alike {token : Token} {used more other : List Token} (hnext : Continues token other)
    (h : unread (used ++ token :: more) = token :: more) :
    (parse (used ++ token :: more)).1.erase = (parse (used ++ other)).1.erase ∧
      (other ≠ [] → (parse (used ++ token :: more)).1 = (parse (used ++ other)).1) ∧
      expressionFindings (used ++ token :: more) = expressionFindings (used ++ other) ∧
      unread (used ++ other) = other := by
  have hsuffix : token :: more <:+ unread (used ++ token :: more) := by
    simp only [h, List.suffix_refl]
  obtain ⟨hvalue, hsame, hfound, used', hrest, hcursor⟩ :=
    chain_alike hnext maxNesting used 0 hsuffix
  have hused : [] = used' := List.append_cancel_right (hrest.symm.trans h).symm
  subst hused
  rw [parse_value, parse_value]
  exact ⟨hvalue, hsame, hfound, congrArg Cursor.rest hcursor⟩

/-- **The parser looks one token ahead.** Where a token is left unread, the tokens behind it do not
matter at all; without it and them the same is read, up to places, and found wrong, except that
there is nothing unexpected left. Such a token is never a sign, and when there is none, nothing is
unexpected but closing parentheses that were skipped. -/
theorem parse_lookahead :
    (∀ (text : String) (k : Nat) (token : Token), (tokenize text)[k]? = some token →
      unread (tokenize text) = (tokenize text).drop k →
      (∀ others, parse ((tokenize text).take (k + 1) ++ others) = parseText text) ∧
      (parse ((tokenize text).take k)).1.erase = (parseText text).1.erase ∧
      (parseText text).2 = (parse ((tokenize text).take k)).2 ++ [.unexpected token.lexeme] ∧
      unread ((tokenize text).take k) = [] ∧
      ∀ s, token.lexeme ≠ .sign s) ∧
    ∀ tokens, unread tokens = [] → OnlyStrays (parse tokens).2 := by
  constructor
  · intro text k token hk hunread
    obtain ⟨hlt, hget⟩ := List.getElem?_eq_some_iff.1 hk
    have hdrop : (tokenize text).drop k = token :: (tokenize text).drop (k + 1) := by
      rw [List.drop_eq_getElem_cons hlt, hget]
    have hsplit : (tokenize text).take k ++ token :: (tokenize text).drop (k + 1)
        = tokenize text := by
      rw [← hdrop, List.take_append_drop]
    have hleft : unread ((tokenize text).take k ++ token :: (tokenize text).drop (k + 1))
        = token :: (tokenize text).drop (k + 1) := by
      rw [hsplit, hunread, hdrop]
    refine ⟨fun others => ?_, ?_⟩
    -- with other tokens behind the one that stops the parser
    · obtain ⟨-, hsame, hfound, hother⟩ := parse_alike (.same others) hleft
      rw [List.take_add_one, hk, Option.toList_some, List.append_assoc, List.singleton_append]
      refine Prod.ext ?_ ?_
      · rw [← hsame (List.cons_ne_nil _ _), hsplit, parseText]
      · rw [parse_diagnostics, ← hfound, hother, hsplit, parseText, parse_diagnostics, hunread,
          hdrop]
        rfl
    -- with nothing in its place
    · obtain ⟨hvalue, -, hfound, hother⟩ := parse_alike .nothing hleft
      rw [hsplit, List.append_nil] at hvalue hfound
      rw [List.append_nil] at hother
      refine ⟨hvalue.symm, ?_, hother, ?_⟩
      · rw [parseText, parse_diagnostics, parse_diagnostics, hfound, hother, hunread, hdrop]
        simp
      · have hstop := unread_noSign (tokenize text)
        rw [hunread, hdrop] at hstop
        exact hstop token rfl
  · intro tokens hunread
    rw [parse_diagnostics, hunread]
    exact onlyStrays_append.2 ⟨strays_kept.chain maxNesting ⟨tokens, 0⟩, onlyStrays_nil⟩

/-- A matrix with a closing parenthesis in it, and an opening one in front of the `3` that is not
closed: what is left unread begins with the mark behind the `3`. -/
theorem parse_lookahead_unclosed :
    ((tokenize "[1,2)]+(3 T 4")[9]? = some (Mark.transpose.token 10) ∧
      unread (tokenize "[1,2)]+(3 T 4") = (tokenize "[1,2)]+(3 T 4").drop 9) ∧
    ∀ others, parse ((tokenize "[1,2)]+(3 T 4").take 10 ++ others) = parseText "[1,2)]+(3 T 4" := by
  have htoken : (tokenize "[1,2)]+(3 T 4")[9]? = some (Mark.transpose.token 10) := by
    decide +kernel
  have hunread : unread (tokenize "[1,2)]+(3 T 4") = (tokenize "[1,2)]+(3 T 4").drop 9 := by
    decide +kernel
  exact ⟨⟨htoken, hunread⟩, (parse_lookahead.1 _ 9 _ htoken hunread).1⟩

end LinearCalc
