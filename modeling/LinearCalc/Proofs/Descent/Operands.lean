import LinearCalc.Proofs.Descent.Chains
import LinearCalc.Proofs.Readers

set_option autoImplicit false

/-! # The machine reads operands like the parser

Passing over, brackets, minus signs and at last operands (`operand_follows`): each routine of the
machine follows the function of the parser for the same phrase. The reader that belongs to a depth
is the one for which just as many levels are left.
-/

namespace LinearCalc
namespace Descent

variable {routine : Routine} {budget depth : Nat} {reader : OperandReader}

/-! ## Passing over -/

theorem minusRound_advances (budget : Nat) :
    Advances minusRound (fun c => c.rest.length)
      (fun c result => result = c.moveTo (skipMinuses c.last c.rest)) budget := by
  intro c result h
  obtain ⟨rest, last, depth, diagnostics⟩ := c
  subst h
  dsimp only
  -- the cases are those of the parser's own recursion: each round of the loop is one step of it
  fun_cases skipMinuses last rest with
  | case1 => exact .inr (.ok _ _)
  | case2 token rest hminus =>
      refine .inl ⟨⟨rest, token.stop, depth, diagnostics⟩, ?_, Nat.lt_succ_self _, rfl⟩
      have hword : Context.word? ⟨token :: rest, last, depth, diagnostics⟩
          = some (.sign .minus) := congrArg some hminus
      simp only [minusRound, hword]
      exact .ok _ _
  | case3 token rest hother =>
      right
      have hword : Context.word? ⟨token :: rest, last, depth, diagnostics⟩
          = some token.lexeme := rfl
      unfold minusRound
      split
      · rename_i hminus
        rw [hword] at hminus
        exact absurd (Option.some.inj hminus) hother
      · exact .ok _ _

theorem balanceRound_cons (balance last depth : Nat) (token : Token) (rest : List Token)
    (diagnostics : List Diagnostic) :
    balanceRound (balance, ⟨token :: rest, last, depth, diagnostics⟩)
      = if token.lexeme.opens then
          .ok (.again (balance + 1, ⟨rest, token.stop, depth, diagnostics⟩))
        else if token.lexeme.closes then
          if balance = 0 then .ok (.done ⟨token :: rest, last, depth, diagnostics⟩)
          else if balance - 1 = 0 then .ok (.done ⟨rest, token.stop, depth, diagnostics⟩)
          else .ok (.again (balance - 1, ⟨rest, token.stop, depth, diagnostics⟩))
        else if balance = 0 then
          if token.lexeme.startsOperand then .ok (.done ⟨rest, token.stop, depth, diagnostics⟩)
          else .ok (.done ⟨token :: rest, last, depth, diagnostics⟩)
        else
          .ok (.again (balance, ⟨rest, token.stop, depth, diagnostics⟩)) := rfl

theorem balanceRound_advances (budget : Nat) :
    Advances balanceRound (fun state => state.2.rest.length)
      (fun state result =>
        result = state.2.moveTo (skipBalanced state.1 state.2.last state.2.rest)) budget := by
  intro state result h
  obtain ⟨balance, ⟨rest, last, depth, diagnostics⟩⟩ := state
  subst h
  dsimp only
  -- one case for each branch of the recursion: an opening bracket, a closing one at three depths,
  -- and a token between them that starts an operand or does not
  fun_cases skipBalanced balance last rest with
  | case1 => exact .inr (.ok _ _)
  | case2 balance token rest hopens =>
      refine .inl ⟨(balance + 1, ⟨rest, token.stop, depth, diagnostics⟩), ?_,
        Nat.lt_succ_self _, rfl⟩
      rw [balanceRound_cons, if_pos hopens]
      exact .ok _ _
  | case3 token rest hopens hcloses =>
      rw [balanceRound_cons, if_neg hopens, if_pos hcloses]
      exact .inr (.ok _ _)
  | case4 token rest hopens hcloses =>
      rw [balanceRound_cons, if_neg hopens, if_pos hcloses]
      exact .inr (.ok _ _)
  | case5 token rest hopens hcloses balance =>
      refine .inl ⟨(balance + 1, ⟨rest, token.stop, depth, diagnostics⟩), ?_,
        Nat.lt_succ_self _, rfl⟩
      rw [balanceRound_cons, if_neg hopens, if_pos hcloses]
      exact .ok _ _
  | case6 token rest hopens hcloses hstarts =>
      rw [balanceRound_cons, if_neg hopens, if_neg hcloses, if_pos rfl, if_pos hstarts]
      exact .inr (.ok _ _)
  | case7 token rest hopens hcloses hstarts =>
      rw [balanceRound_cons, if_neg hopens, if_neg hcloses, if_pos rfl, if_neg hstarts]
      exact .inr (.ok _ _)
  | case8 balance token rest hopens hcloses hne =>
      refine .inl ⟨(balance, ⟨rest, token.stop, depth, diagnostics⟩), ?_,
        Nat.lt_succ_self _, rfl⟩
      rw [balanceRound_cons, if_neg hopens, if_neg hcloses, if_neg hne]
      exact .ok _ _

/-- Passing over an operand takes a round for each of its words and one more. -/
theorem skip_settles (c : Context) :
    Settles (skip budget c) ((passOver c.cursor).value, c.reached (passOver c.cursor))
      (c.rest.length < budget) := by
  have hminuses := loop_settles (minusRound_advances budget) budget
    (c.report [.nestedTooDeeply]) _ rfl
  have hbalanced := loop_settles (balanceRound_advances budget) budget
    (0, (c.report [.nestedTooDeeply]).moveTo (skipMinuses c.last c.rest)) _ rfl
  have hle := (skipMinuses_suffix c.last c.rest).length_le
  refine (hminuses.mono ?_).bind ((hbalanced.mono ?_).bind (.ok _ _))
  · intro hbudget
    exact ⟨hbudget, hbudget⟩
  · intro hbudget
    have hless : (skipMinuses c.last c.rest).rest.length < budget := Nat.lt_of_le_of_lt hle hbudget
    exact ⟨hless, hless⟩

/-! ## Matrices -/

/-- The items found so far lead to those that are found ahead. -/
def Collects (reader : OperandReader) (depth : Nat) (state : List Item × Context)
    (result : (List Item × Option Token) × Context) : Prop :=
  state.2.depth = depth ∧
  result = ((state.1 ++ (readItems reader state.2.last state.2.rest).value.1,
      (readItems reader state.2.last state.2.rest).value.2),
    state.2.reached (readItems reader state.2.last state.2.rest))

theorem itemRound_cons (items : List Item) (token : Token) (rest : List Token) (last depth : Nat)
    (diagnostics : List Diagnostic) :
    itemRound routine (items, ⟨token :: rest, last, depth, diagnostics⟩)
      = match token.lexeme.role with
        | .close => .ok (.done ((items, some token), ⟨rest, token.stop, depth, diagnostics⟩))
        | .comma => .ok (.again (items ++ [.comma token.span],
            ⟨rest, token.stop, depth, diagnostics⟩))
        | .semicolon => .ok (.again (items ++ [.semicolon token.span],
            ⟨rest, token.stop, depth, diagnostics⟩))
        | .stray => .ok (.again (items,
            ⟨rest, token.stop, depth, diagnostics ++ [.unexpected token.lexeme]⟩))
        | .expression => do
            let (e, c) ← routine none ⟨token :: rest, last, depth, diagnostics⟩
            return .again (items ++ [.element e], c) := rfl

/-- **Each round of the matrix loop takes a token, or leaves the loop.** -/
theorem itemRound_advances (h : Follows routine budget depth (chainTo reader 4)) :
    Advances (itemRound routine) (fun state => state.2.rest.length) (Collects reader depth)
      budget := by
  intro state result hstate
  obtain ⟨items, ⟨rest, last, depth', diagnostics⟩⟩ := state
  obtain ⟨hdepth, hresult⟩ := hstate
  dsimp only at hdepth hresult ⊢
  subst hdepth hresult
  -- `Collects` says that what was collected, followed by what the recursion still reads, is the
  -- result: so one branch of the recursion is one round
  fun_cases readItems reader last rest with
  | case1 =>
      right
      rw [List.append_nil]
      exact .ok _ _
  | case2 token rest hrole =>
      right
      rw [itemRound_cons, hrole, List.append_nil]
      simp only [Context.reached_mk, List.append_nil]
      exact .ok _ _
  | case3 token rest hrole =>
      refine .inl ⟨(items ++ [.comma token.span], ⟨rest, token.stop, depth', diagnostics⟩), ?_,
        Nat.lt_succ_self _, rfl, ?_⟩
      · rw [itemRound_cons, hrole]
        exact .ok _ _
      · rw [List.append_assoc]
        rfl
  | case4 token rest hrole =>
      refine .inl ⟨(items ++ [.semicolon token.span], ⟨rest, token.stop, depth', diagnostics⟩), ?_,
        Nat.lt_succ_self _, rfl, ?_⟩
      · rw [itemRound_cons, hrole]
        exact .ok _ _
      · rw [List.append_assoc]
        rfl
  | case5 token rest hrole =>
      refine .inl ⟨(items, ⟨rest, token.stop, depth', diagnostics ++ [.unexpected token.lexeme]⟩),
        ?_, Nat.lt_succ_self _, rfl, ?_⟩
      · rw [itemRound_cons, hrole]
        exact .ok _ _
      · simp
  | case6 token rest hrole element more =>
      -- the element takes a token, since one stands here that an operand or a sign starts with
      have hadvances := chain_advances reader token rest last
        (Lexeme.startsOperand_or_sign_of_role hrole)
      have helement := h none ⟨token :: rest, last, depth', diagnostics⟩ rfl
      rw [Context.cursor, chainTo_four] at helement
      refine .inl ⟨(items ++ [.element element.value],
        Context.reached ⟨token :: rest, last, depth', diagnostics⟩ element), ?_, ?_, rfl, ?_⟩
      · rw [itemRound_cons, hrole]
        exact helement.bind (.ok _ _)
      · exact Nat.lt_succ_of_le hadvances.length_le
      · simp [more]

theorem matrix_settles (h : Follows routine budget depth (chainTo reader 4)) (token : Token)
    (rest : List Token) (last : Nat) (diagnostics : List Diagnostic) :
    Settles (matrix routine budget ⟨token :: rest, last, depth, diagnostics⟩)
      ((readMatrix reader token rest).value,
        Context.reached ⟨token :: rest, last, depth, diagnostics⟩ (readMatrix reader token rest))
      (rest.length < budget) := by
  have hitems := loop_settles (itemRound_advances h) budget
    ([], ⟨rest, token.stop, depth, diagnostics⟩) _ ⟨rfl, rfl⟩
  have hresult : Context.reached ⟨token :: rest, last, depth, diagnostics⟩
      (readMatrix reader token rest)
        = (Context.reached ⟨rest, token.stop, depth, diagnostics⟩
            (readItems reader token.stop rest)).report
          (List.replicate (surplus false (readItems reader token.stop rest).value.1)
            .expectedSeparator) := by
    simp [readMatrix, Context.reached, Context.report, Context.moveTo]
  rw [hresult]
  refine (Settles.ok _ _).bind ((hitems.mono ?_).bind (.ok _ _))
  intro hbudget
  exact ⟨hbudget, hbudget⟩

/-! ## Parentheses and minus signs -/

theorem paren_settles (h : Follows routine budget depth (chainTo reader 4)) (token : Token)
    (rest : List Token) (last : Nat) (diagnostics : List Diagnostic) :
    Settles (paren routine ⟨token :: rest, last, depth, diagnostics⟩)
      ((readParen reader token rest).value,
        Context.reached ⟨token :: rest, last, depth, diagnostics⟩ (readParen reader token rest))
      (rest.length < budget) := by
  have hinner := h none ⟨rest, token.stop, depth, diagnostics⟩ rfl
  rw [Context.cursor, chainTo_four] at hinner
  refine (Settles.ok _ _).bind (hinner.bind ?_)
  have hcursor : Cursor.after token rest = ⟨rest, token.stop⟩ := rfl
  unfold readParen
  rw [hcursor]
  generalize chain reader ⟨rest, token.stop⟩ = inner
  obtain ⟨value, found, ⟨rest', last'⟩⟩ := inner
  -- a missing bracket is reported alike at the end of the text and before another token
  have hunclosed : Settles (.ok (Expr.paren value ⟨token.start, value.span.stop⟩,
        Context.report ⟨rest', last', depth, diagnostics ++ found⟩ [.expectedCloseParen]))
      (Expr.paren value ⟨token.start, value.span.stop⟩,
        (⟨rest', last', depth, diagnostics ++ (found ++ [.expectedCloseParen])⟩ : Context))
      (rest.length < budget) := by
    rw [← List.append_assoc]
    exact .ok _ _
  cases rest' with
  | nil => exact hunclosed
  | cons next more =>
      have hword : Context.word? ⟨next :: more, last', depth, diagnostics ++ found⟩
          = some next.lexeme := rfl
      by_cases hclosed : next.lexeme = .mark .closeParen
      · rw [hclosed] at hword
        simp only [Context.reached, Context.moveTo, Context.report, hword, hclosed, if_true]
        exact (Settles.ok _ _).bind (.ok _ _)
      · simp only [Context.reached, Context.moveTo, Context.report, hword, hclosed, if_false]
        split
        · exact absurd (Option.some.inj ‹_›) hclosed
        · exact hunclosed

theorem negation_settles (h : Follows routine budget depth reader.read) (token : Token)
    (rest : List Token) (last : Nat) (diagnostics : List Diagnostic) :
    Settles (negation routine ⟨token :: rest, last, depth, diagnostics⟩)
      ((readNegation reader token rest).value,
        Context.reached ⟨token :: rest, last, depth, diagnostics⟩ (readNegation reader token rest))
      (rest.length < budget) := by
  have hoperand := h none ⟨rest, token.stop, depth, diagnostics⟩ rfl
  refine (Settles.ok _ _).bind ?_
  -- a literal is folded into the negation; another minus or a bracket is read as an operand
  match rest with
  | [] => exact .ok _ _
  | ⟨.number digits, start⟩ :: rest =>
      simp only [Context.reached_mk, readNegation, List.append_nil]
      exact (Settles.ok _ _).bind (.ok _ _)
  | ⟨.sign s, start⟩ :: rest =>
      cases s with
      | minus => exact hoperand.bind (.ok _ _)
      | plus | star | slash | caret | dot | letterX | times => exact .ok _ _
  | ⟨.mark mark, start⟩ :: rest =>
      cases mark with
      | openParen => exact hoperand.bind (.ok _ _)
      | openBracket => exact hoperand.bind (.ok _ _)
      | closeParen | closeBracket | comma | semicolon | transpose => exact .ok _ _

/-! ## Operands -/

/-- What a run settles on one level further down, it settles on when it comes back. -/
theorem Settles.leave {run : Except Fault (Expr Float × Context)} {e : Expr Float} {c : Context}
    {enough : Prop} (h : Settles run (e, c) enough) :
    Settles (do
        let (e, c) ← run
        return (e, { c with depth := c.depth - 1 })) (e, { c with depth := c.depth - 1 }) enough :=
  h.bind (.ok _ _)

/-- A bracket or a minus is read further down, or passed over. -/
theorem operand_of_nests {token : Token} (hnests : token.lexeme.nests = true)
    (after : Option Nat) (rest : List Token) (last depth : Nat) (diagnostics : List Diagnostic) :
    operand (budget + 1) after ⟨token :: rest, last, depth, diagnostics⟩
      = nested (operand budget) budget ⟨token :: rest, last, depth, diagnostics⟩ := by
  match token with
  | ⟨.number _, _⟩ => cases hnests
  | ⟨.sign s, _⟩ =>
      cases s with
      | minus => rfl
      | plus | star | slash | caret | dot | letterX | times => cases hnests
  | ⟨.mark m, _⟩ =>
      cases m with
      | openParen => rfl
      | openBracket => rfl
      | closeParen | closeBracket | comma | semicolon | transpose => cases hnests

/-- Where no operand starts, one is made up. -/
theorem operand_of_noOperand (after : Option Nat) (c : Context) (h : NoOperand c.rest) :
    operand (budget + 1) after c = .ok ((missingOperand after c.cursor).value,
      c.reached (missingOperand after c.cursor)) := by
  have hmissing : missing after c = ((missingOperand after c.cursor).value,
      c.reached (missingOperand after c.cursor)) := by
    cases after <;> rfl
  rw [← hmissing]
  obtain ⟨rest, last, depth, diagnostics⟩ := c
  match rest with
  | [] => rfl
  | ⟨.number _, _⟩ :: _ => cases h _ rfl
  | ⟨.sign s, _⟩ :: _ =>
      cases s with
      | minus => cases h _ rfl
      | plus | star | slash | caret | dot | letterX | times => rfl
  | ⟨.mark m, _⟩ :: _ =>
      cases m with
      | transpose => cases h _ rfl
      | openParen => cases h _ rfl
      | openBracket => cases h _ rfl
      | closeParen | closeBracket | comma | semicolon => rfl

/-- The routine follows a reader when it follows the reader inside, one level further down. -/
theorem operand_succ_follows (inner : Option OperandReader)
    (hnone : inner = none → maxNesting ≤ depth)
    (hsome : ∀ reader, inner = some reader → depth < maxNesting ∧
      Follows (operand budget) budget (depth + 1) reader.read) :
    Follows (operand (budget + 1)) (budget + 1) depth (readOperand inner) := by
  intro after c hc
  obtain ⟨rest, last, depth', diagnostics⟩ := c
  obtain rfl : depth' = depth := hc
  -- one level further down, a token has been taken already
  have hinside : ∀ {token : Token} {rest : List Token} {last : Nat} {r : Reading (Expr Float)}
      {run : Except Fault (Expr Float × Context)},
      Settles run (r.value, Context.reached ⟨token :: rest, last, depth' + 1, diagnostics⟩ r)
        (rest.length < budget) →
      Settles (do
          let (e, c) ← run
          return (e, { c with depth := c.depth - 1 }))
        (r.value, Context.reached ⟨token :: rest, last, depth', diagnostics⟩ r)
        ((token :: rest).length < budget + 1) := by
    intro token rest last r run h
    exact h.leave.mono Nat.lt_of_succ_lt_succ
  have hentered : depth' < maxNesting → ¬ maxNesting ≤ depth' := Nat.not_le_of_lt
  refine readOperand_cases inner after
    (motive := fun place r => Settles
      (operand (budget + 1) after ⟨place.rest, place.last, depth', diagnostics⟩)
      (r.value, Context.reached ⟨place.rest, place.last, depth', diagnostics⟩ r)
      (place.rest.length < budget + 1))
    ?missing ?transpose ?number ?tooDeep ?negation ?paren ?matrix ⟨rest, last⟩
  case missing =>
    intro place hno
    rw [operand_of_noOperand after ⟨place.rest, place.last, depth', diagnostics⟩ hno]
    exact .ok _ _
  case transpose =>
    intro start rest last
    simp only [Context.reached_mk, List.append_nil]
    exact (Settles.ok _ _).bind (.ok _ _)
  case number =>
    intro digits start rest last
    simp only [Context.reached_mk, List.append_nil]
    exact (Settles.ok _ _).bind (.ok _ _)
  case tooDeep =>
    intro hinner token rest last hnests
    rw [operand_of_nests hnests, nested, if_pos (hnone hinner)]
    exact skip_settles _
  case negation =>
    intro reader hinner start rest last
    obtain ⟨hdepth, hfollows⟩ := hsome reader hinner
    rw [operand_of_nests rfl, nested, if_neg (hentered hdepth)]
    exact hinside (negation_settles hfollows _ rest last diagnostics)
  case paren =>
    intro reader hinner start rest last
    obtain ⟨hdepth, hfollows⟩ := hsome reader hinner
    rw [operand_of_nests rfl, nested, if_neg (hentered hdepth)]
    exact hinside (paren_settles (climb_follows hfollows 4) _ rest last diagnostics)
  case matrix =>
    intro reader hinner start rest last
    obtain ⟨hdepth, hfollows⟩ := hsome reader hinner
    rw [operand_of_nests rfl, nested, if_neg (hentered hdepth)]
    exact hinside (matrix_settles (climb_follows hfollows 4) _ rest last diagnostics)

/-- **Operands are read like the parser reads them**, by the reader that has as many levels left
as the depth leaves. -/
theorem operand_follows (budget depth : Nat) :
    Follows (operand budget) budget depth (operandReader (maxNesting - depth)).read := by
  -- the budget pays for the calls and the depth for the levels: only the first is certain to go
  -- down in every call, since an operand that is passed over enters no level
  induction budget generalizing depth with
  | zero =>
      intro after c hc
      exact .inr ⟨rfl, Nat.not_lt_zero _⟩
  | succ budget ih =>
      by_cases hdepth : depth < maxNesting
      · obtain ⟨left, hleft⟩ : ∃ left, maxNesting - depth = left + 1 :=
          ⟨maxNesting - depth - 1, by omega⟩
        have hinside : maxNesting - (depth + 1) = left := by omega
        rw [hleft]
        refine operand_succ_follows (some (operandReader left)) (by simp) ?_
        intro reader hreader
        cases hreader
        exact ⟨hdepth, hinside ▸ ih (depth + 1)⟩
      · have hnone : maxNesting - depth = 0 := by omega
        rw [hnone]
        exact operand_succ_follows none (fun _ => Nat.le_of_not_lt hdepth) (by simp)

/-- **Expressions are read like the parser reads them.** -/
theorem expression_follows (budget depth : Nat) :
    Follows (expression budget) budget depth
      (chainTo (operandReader (maxNesting - depth)) 4) :=
  climb_follows (operand_follows budget depth) 4

end Descent
end LinearCalc
