import LinearCalc.Parse
import LinearCalc.Proofs.Descent.Returns
import LinearCalc.Proofs.Grammar.Completeness
import LinearCalc.Proofs.Sources
import LinearCalc.Proofs.Termination

set_option autoImplicit false

/-! # The nesting limit

However malformed a text is, brackets and negations are nested at most `maxNesting` deep in its
tree, and the depth that the machine counts while it parses stays within the same limit
(`nesting_bounded`). The text of `Term.parens maxNesting` attains both bounds.
-/

namespace LinearCalc

/-! ## Nested parentheses -/

def Sum.ofTerm (t : Term) : Sum := .chain (.chain (.chain (.chain (.term t) .nil) .nil) .nil) .nil

theorem Sum.tokens_ofTerm (t : Term) : (Sum.ofTerm t).tokens = t.tokens := by
  simp [Sum.ofTerm]

/-- The number `1` in so many parentheses from an offset on. -/
def Term.parens (start : Nat) : Nat → Term
  | 0 => .number ['1'] start
  | count + 1 => .paren start (Sum.ofTerm (Term.parens (start + 1) count)) (start + 2 * count + 2)

/-- All of them are on one branch, if so many may be nested. -/
theorem Term.branch_parens (start count m : Nat) :
    ∃ path, ((Term.parens start count).treeWithin (m + count)).Branch path ∧
      path.countP Expr.nests = count := by
  induction count generalizing start with
  | zero => exact ⟨_, .leaf rfl, rfl⟩
  | succ count ih =>
      obtain ⟨path, hpath, hcount⟩ := ih (start + 1)
      refine ⟨_, .node (List.mem_singleton.2 rfl) hpath, ?_⟩
      rw [List.countP_cons_of_pos rfl, hcount]

/-! ## Calls -/

namespace Descent

/-- The call that reads the whole expression of a text. -/
def Call.whole (budget : Nat) (text : String) : Call :=
  ⟨.chain 4 none, budget, .start (tokenize text)⟩

theorem Call.whole_fits {budget : Nat} {text : String} (h : text.length < budget) :
    (Call.whole budget text).Fits := by
  rw [← String.length_toList] at h
  exact Nat.lt_of_le_of_lt (scan_length 0 text.toList) h

/-- The machine reads the tree of the text, and is back at depth zero. -/
theorem Call.whole_run {budget : Nat} {text : String} (h : text.length < budget) :
    ∃ c, (Call.whole budget text).run = .ok ((LinearCalc.parseText text).1, c) ∧
      c.depth = 0 := by
  have hfollows := expression_follows budget 0 none (.start (tokenize text)) rfl
  rw [chainTo_four] at hfollows
  have hvalue : (LinearCalc.parseText text).1
      = (chain (operandReader (maxNesting - 0)) (Context.start (tokenize text)).cursor).value :=
    parse_value (tokenize text)
  exact ⟨_, hvalue ▸ hfollows.eq_ok (Call.whole_fits h), rfl⟩

/-- **The nesting is bounded on every text.** No branch of its tree has more than `maxNesting`
brackets and negations. No call in the course of the parse is deeper than that, and with a budget of
more rounds than the text has characters all of them return. A call that returns is at the depth at
which it began, so that the depth is zero at the end. No call is left out of this account: a call
comes to the same with every other routine that agrees on the operands it calls for. -/
theorem nesting_bounded :
    maxNesting = 50 ∧
    (∀ text path, (LinearCalc.parseText text).1.Branch path →
      path.countP Expr.nests ≤ maxNesting) ∧
    (∀ text budget call, (Call.whole budget text).Reaches call →
      call.context.depth ≤ maxNesting ∧
      (text.length < budget → ∃ e c, call.run = .ok (e, c))) ∧
    (∀ (call : Call) e c, call.run = .ok (e, c) → c.depth = call.context.depth) ∧
    (∀ text budget, text.length < budget →
      ∃ c, (Call.whole budget text).run = .ok ((LinearCalc.parseText text).1, c) ∧ c.depth = 0) ∧
    (∀ (call : Call) other, call.Agrees other →
      call.job.runWith other call.budget call.context = call.run) := by
  refine ⟨rfl, ?_, ?_, fun call e c => Call.depth_of_ok, fun text budget => Call.whole_run,
    Call.runWith_eq⟩
  · intro text
    exact (parse_built (tokenize_follow text)).layered.countP_le
  · intro text budget call hreaches
    refine ⟨hreaches.depth_le (Nat.zero_le _), ?_⟩
    intro hbudget
    exact (hreaches.fits (Call.whole_fits hbudget)).exists_ok

/-! ## The limit is reached -/

/-- An opening parenthesis leads one level further down. -/
theorem Call.reaches_content {depth : Nat} (budget start last : Nat) (rest : List Token)
    (diagnostics : List Diagnostic) (h : depth < maxNesting) :
    Call.Reaches
      ⟨.chain 4 none, budget + 1, ⟨Mark.openParen.token start :: rest, last, depth, diagnostics⟩⟩
      ⟨.chain 4 none, budget,
        ⟨rest, (Mark.openParen.token start).stop, depth + 1, diagnostics⟩⟩ := by
  have hnested : Call.Makes
      ⟨.operand none, budget + 1, ⟨Mark.openParen.token start :: rest, last, depth, diagnostics⟩⟩
      ⟨.nested, budget, ⟨Mark.openParen.token start :: rest, last, depth, diagnostics⟩⟩ :=
    .nested (show Context.word? _ = some (.mark .openParen) from rfl) rfl
  exact .head (.first 3 none _ _) (.head (.first 2 none _ _) (.head (.first 1 none _ _)
    (.head (.first 0 none _ _) (.head (.tightest none _ _) (.head hnested
      (.head (.enter h) (.single (.content rfl))))))))

/-- So do all parentheses one after the other. -/
theorem Call.reaches_parens (count budget start last depth : Nat) (rest : List Token)
    (diagnostics : List Diagnostic) (h : depth + count ≤ maxNesting) :
    ∃ rest' last', Call.Reaches
      ⟨.chain 4 none, budget + count,
        ⟨(Term.parens start count).tokens ++ rest, last, depth, diagnostics⟩⟩
      ⟨.chain 4 none, budget, ⟨rest', last', depth + count, diagnostics⟩⟩ := by
  -- each parenthesis costs a level of depth and a unit of the budget
  induction count generalizing start last depth rest with
  | zero => exact ⟨_, _, .refl⟩
  | succ count ih =>
      have hone := Call.reaches_content (budget + count) start last
        ((Term.parens (start + 1) count).tokens ++
          (Mark.closeParen.token (start + 2 * count + 2) :: rest)) diagnostics
        (show depth < maxNesting by omega)
      obtain ⟨rest', last', hmore⟩ := ih (start + 1) (Mark.openParen.token start).stop (depth + 1)
        (Mark.closeParen.token (start + 2 * count + 2) :: rest) (by omega)
      have hdepth : depth + 1 + count = depth + (count + 1) := by omega
      rw [hdepth] at hmore
      refine ⟨rest', last', ?_⟩
      rw [Term.parens, Term.tokens, Sum.tokens_ofTerm, List.cons_append, List.append_assoc]
      exact hone.trans hmore

/-- As many parentheses around a number as may be nested. -/
def deepestText : String :=
  String.ofList (List.replicate 50 '(') ++ "1" ++ String.ofList (List.replicate 50 ')')

/-- Reads operands, but fails on one that is deeper than the limit. -/
def refusing (budget : Nat) : Routine := fun after c =>
  if c.depth ≤ maxNesting then operand budget after c else .error .pastEnd

/-- **Both bounds are attained**: there are as many parentheses on a branch as may be nested, and a
call is made at that depth, which returns. Nothing deeper is called for: to refuse it makes no
difference. -/
theorem nesting_bounded_attained :
    (∃ path, (LinearCalc.parseText deepestText).1.Branch path ∧
      path.countP Expr.nests = 50 ∧ path.countP Expr.nests ≤ maxNesting) ∧
    deepestText.length < 102 ∧
    (∃ c, (Call.whole 102 deepestText).run = .ok ((LinearCalc.parseText deepestText).1, c) ∧
      c.depth = 0) ∧
    ∃ call, (Call.whole 102 deepestText).Reaches call ∧ call.context.depth = 50 ∧
      call.context.depth ≤ maxNesting ∧
      (∃ e c, call.run = .ok (e, c) ∧ c.depth = call.context.depth) ∧
      call.job.runWith (refusing call.budget) call.budget call.context = call.run := by
  obtain ⟨-, hbranches, hcalls, hdepth, hwhole, hagrees⟩ := nesting_bounded
  have htokens : (Term.parens 0 50).tokens = tokenize deepestText := by decide +kernel
  have hlength : deepestText.length < 102 := by decide +kernel
  refine ⟨?_, hlength, hwhole deepestText 102 hlength, ?_⟩
  -- the text is what fifty parentheses around a number spell out, so its tree is theirs
  · have hchain := chain_tokens_cut (Sum.ofTerm (Term.parens 0 50)) maxNesting [] noSign_nil 0
    rw [List.append_nil, Sum.tokens_ofTerm, htokens] at hchain
    have htree : (LinearCalc.parseText deepestText).1
        = (Term.parens 0 50).treeWithin (0 + 50) := by
      rw [LinearCalc.parseText, parse_value, hchain]
      rfl
    obtain ⟨path, hpath, hcount⟩ := Term.branch_parens 0 50 0
    rw [← htree] at hpath
    exact ⟨path, hpath, hcount, hbranches _ path hpath⟩
  · obtain ⟨rest, last, hreaches⟩ := Call.reaches_parens 50 52 0 0 0 [] [] (Nat.le_refl _)
    rw [List.append_nil, htokens] at hreaches
    obtain ⟨hle, hreturns⟩ := hcalls _ _ _ hreaches
    obtain ⟨e, c, hrun⟩ := hreturns hlength
    refine ⟨_, hreaches, rfl, hle, ⟨e, c, hrun, hdepth _ e c hrun⟩, hagrees _ _ ?_⟩
    intro after inside hoperand
    exact if_pos (hcalls _ _ _ (hreaches.trans hoperand)).1

end Descent
end LinearCalc
