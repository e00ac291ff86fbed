import LinearCalc.Number.Numeral
import LinearCalc.Proofs.Readers
import LinearCalc.Proofs.Spans.Scanned
import LinearCalc.Proofs.Spans.Tidy

set_option autoImplicit false

/-! # Where nodes come from

A node of a parsed tree is sourced when its content comes from tokens of the text: a number is the
value of a number token or of one with the minus right before it, an operation is the sign between
its operands, and so on. Only zeros and placeholders may stand for something missing, and then they
are empty (`Expr.Sourced`).

In a tidy tree of sourced nodes a token supplies at most one node (`pairwise_negates`): the tokens
of a node lie inside its span and outside its children. The only exception is a minus that negates
an operand, which is both the operation and the literal `-1` on its left.
-/

namespace LinearCalc

/-! ## Sources -/

/-- The content of a node comes from these tokens. -/
inductive Expr.Sourced (tokens : List Token) : Expr Float → Prop where
  /-- The value of a number token. -/
  | number (t : Token) (digits : List Char) (mem : t ∈ tokens)
      (lexeme : t.lexeme = .number digits) : Sourced tokens (.number (plainValue digits) t.span)
  /-- The opposite of a number token with a minus right before it. -/
  | negative (minus t : Token) (digits : List Char) (adjacent : [minus, t] <:+: tokens)
      (sign : minus.lexeme = .sign .minus) (lexeme : t.lexeme = .number digits) :
      Sourced tokens (.number (-(plainValue digits)) ⟨minus.start, t.stop⟩)
  /-- The literal of a minus that negates an operand. -/
  | minusOne (minus : Token) (mem : minus ∈ tokens) (sign : minus.lexeme = .sign .minus) :
      Sourced tokens (.number (-1) minus.span)
  /-- A minus that nothing follows. -/
  | bareMinus (minus : Token) (mem : minus ∈ tokens) (sign : minus.lexeme = .sign .minus) :
      Sourced tokens (.number 0 minus.span)
  /-- A number that is missing. -/
  | missingNumber (offset : Nat) : Sourced tokens (.number 0 (.point offset))
  /-- The mark `T`. -/
  | transpose (t : Token) (mem : t ∈ tokens) (mark : t.lexeme = .mark .transpose) :
      Sourced tokens (.symbol "T" t.span)
  /-- An operand or an element that is missing. -/
  | missing (offset : Nat) : Sourced tokens (.placeholder (.point offset))
  /-- An operand that is nested too deeply. -/
  | tooDeep (t : Token) (stop : Nat) (mem : t ∈ tokens) (nests : t.lexeme.nests = true) :
      Sourced tokens (.placeholder ⟨t.start, stop⟩)
  /-- A parenthesis before its content. -/
  | paren (opening : Token) (inner : Expr Float) (stop : Nat) (mem : opening ∈ tokens)
      (mark : opening.lexeme = .mark .openParen) (before : opening.stop ≤ inner.span.start) :
      Sourced tokens (.paren inner ⟨opening.start, stop⟩)
  /-- A bracket before the elements of a matrix. -/
  | matrix (opening : Token) (rows : List (List (Expr Float))) (stop : Nat)
      (mem : opening ∈ tokens) (mark : opening.lexeme = .mark .openBracket)
      (before : ∀ e ∈ rows.flatten, opening.stop ≤ e.span.start) :
      Sourced tokens (.matrix rows ⟨opening.start, stop⟩)
  /-- A sign between its operands. -/
  | operation (t : Token) (sign : Sign) (left right : Expr Float) (span : Span)
      (mem : t ∈ tokens) (lexeme : t.lexeme = .sign sign) (afterLeft : left.span.stop ≤ t.start)
      (beforeRight : t.stop ≤ right.span.start) :
      Sourced tokens (.binary sign.operator t.span left right span)
  /-- A minus before the operand that it negates. -/
  | negation (minus : Token) (right : Expr Float) (span : Span) (mem : minus ∈ tokens)
      (sign : minus.lexeme = .sign .minus) (before : minus.stop ≤ right.span.start) :
      Sourced tokens (.binary .mul minus.span (.number (-1) minus.span) right span)

/-! ## Tokens and the nodes they supply -/

/-- The token is a bracket around the content of a node: one that opens at the start of the node,
or one that closes at its end, behind its children. -/
def Token.Encloses (t : Token) (n : Expr Float) : Prop :=
  t.span.Within n.span ∧
    ((t.lexeme.opens = true ∧ t.start = n.span.start) ∨
      (t.lexeme.closes = true ∧ t.stop = n.span.stop ∧ ∀ c ∈ n.children, c.span.stop ≤ t.start))

/-- The node takes its content from the token: a node without children covers it, an operation is
its sign, and a bracketed node has it as a bracket. -/
def Token.Supplies (t : Token) : Expr Float → Prop
  | .number _ s => t.span.Within s
  | .symbol _ s => t.span.Within s
  | .placeholder s => t.span.Within s
  | .paren inner s => t.Encloses (.paren inner s)
  | .matrix rows s => t.Encloses (.matrix rows s)
  | .binary _ opSpan _ _ _ => t.span = opSpan
  | .unsupported _ opSpan _ _ _ => t.span = opSpan

/-- The token is a minus, the first node is the operand that it negates multiplied by `-1`, and the
second node is this `-1`. -/
def Token.Negates (t : Token) (a b : Expr Float) : Prop :=
  t.lexeme = .sign .minus ∧ b = .number (-1) t.span ∧
    ∃ right span, a = .binary .mul t.span b right span

/-- A bracket covers one character. -/
theorem Token.stop_of_opens {t : Token} (h : t.lexeme.opens = true) : t.stop = t.start + 1 := by
  obtain ⟨lexeme, start⟩ := t
  cases lexeme with
  | number digits => exact absurd h (by simp [Lexeme.opens])
  | sign s => exact absurd h (by simp [Lexeme.opens])
  | mark m => rfl

/-- What stops before a token starts, or starts after it stops, does not hold the token. -/
theorem Token.not_within {t : Token} {s : Span} (hlength : t.start < t.stop)
    (h : s.stop ≤ t.start ∨ t.stop ≤ s.start) : ¬ t.span.Within s := by
  rintro ⟨hstart, hstop⟩
  have hstart' : s.start ≤ t.start := hstart
  have hstop' : t.stop ≤ s.stop := hstop
  omega

/-- A token that encloses a node lies outside the children, if a bracket at the start of the node
does. -/
theorem Token.Encloses.outside {t opening : Token} {n c : Expr Float} (h : t.Encloses n)
    (hc : c ∈ n.children) (hopens : opening.lexeme.opens = true)
    (hstart : opening.start = n.span.start) (hbefore : opening.stop ≤ c.span.start) :
    c.span.stop ≤ t.start ∨ t.stop ≤ c.span.start := by
  rcases h.2 with ⟨hopens', hstart'⟩ | ⟨-, -, hbehind⟩
  · have hstop := Token.stop_of_opens hopens
    have hstop' := Token.stop_of_opens hopens'
    exact .inr (by omega)
  · exact .inl (hbehind c hc)

namespace Expr
namespace Sourced

variable {tokens : List Token} {n : Expr Float} {t : Token}

/-- A token lies inside the nodes that it supplies. -/
theorem within (h : n.Sourced tokens) (htidy : n.Tidy) (hsupplies : t.Supplies n) :
    t.span.Within n.span := by
  cases h with
  | number | negative | minusOne | bareMinus | missingNumber | transpose | missing | tooDeep =>
      exact hsupplies
  | paren | matrix => exact hsupplies.1
  | operation sign s left right span mem lexeme afterLeft beforeRight =>
      have hspan : t.span = sign.span := hsupplies
      -- the children lie in the node, in order and with the sign between them
      have hleft := htidy.here.holds left (by simp)
      have hright := htidy.here.holds right (by simp)
      have hordered := (htidy.of_mem_children left (by simp)).here.ordered
      have hordered' := (htidy.of_mem_children right (by simp)).here.ordered
      rw [hspan]
      constructor
      · calc span.start ≤ left.span.start := hleft.1
          _ ≤ left.span.stop := hordered
          _ ≤ sign.start := afterLeft
      · calc sign.stop ≤ right.span.start := beforeRight
          _ ≤ right.span.stop := hordered'
          _ ≤ span.stop := hright.2
  | negation minus right span mem sign before =>
      have hspan : t.span = minus.span := hsupplies
      have hone := htidy.here.holds (.number (-1) minus.span) (by simp)
      rw [hspan]
      exact hone

/-- **A token that supplies a node lies outside its children**, unless the node is a negation by
that token. -/
theorem negates_of_within_child (h : n.Sourced tokens) (hlength : t.start < t.stop)
    (hunique : ∀ other ∈ tokens, other.span = t.span → other = t) (hsupplies : t.Supplies n)
    {c : Expr Float} (hc : c ∈ n.children) (hwithin : t.span.Within c.span) : t.Negates n c := by
  -- the bracket or sign of a node lies before, behind or between its children
  cases h with
  | number | negative | minusOne | bareMinus | missingNumber | transpose | missing | tooDeep =>
      simp at hc
  | paren opening inner stop mem mark before =>
      have hopens : opening.lexeme.opens = true := by rw [mark]; rfl
      have hcontent : c = inner := by simpa using hc
      have houtside := hsupplies.outside hc hopens rfl (hcontent ▸ before)
      exact absurd hwithin (Token.not_within hlength houtside)
  | matrix opening rows stop mem mark before =>
      have hopens : opening.lexeme.opens = true := by rw [mark]; rfl
      have houtside := hsupplies.outside hc hopens rfl (before c hc)
      exact absurd hwithin (Token.not_within hlength houtside)
  | operation sign s left right span mem lexeme afterLeft beforeRight =>
      obtain ⟨hstart, hstop⟩ := Span.mk.inj (show t.span = sign.span from hsupplies)
      have hsides : c = left ∨ c = right := by simpa using hc
      rcases hsides with rfl | rfl
      · exact absurd hwithin (Token.not_within hlength (.inl (hstart ▸ afterLeft)))
      · exact absurd hwithin (Token.not_within hlength (.inr (hstop ▸ beforeRight)))
  | negation minus right span mem sign before =>
      -- only here does a child, the `-1`, stand where the token stands
      have hsame : minus = t := hunique minus mem (Eq.symm hsupplies)
      have hsides : c = .number (-1) minus.span ∨ c = right := by
        simpa using hc
      rcases hsides with rfl | rfl
      · exact ⟨hsame ▸ sign, by rw [hsame], right, span, by rw [hsame]⟩
      · exact absurd hwithin (Token.not_within hlength (.inr (hsame ▸ before)))

end Sourced

/-! ## Trees -/

def AllSourced (tokens : List Token) (e : Expr Float) : Prop :=
  ∀ n ∈ e.preorder, n.Sourced tokens

theorem allSourced_iff {tokens : List Token} {e : Expr Float} :
    e.AllSourced tokens ↔ e.Sourced tokens ∧ ∀ c ∈ e.children, c.AllSourced tokens :=
  forall_mem_preorder

/-- A sourced node without children. -/
theorem Sourced.leaf {tokens : List Token} {e : Expr Float} (h : e.Sourced tokens)
    (hchildren : e.children = []) : e.AllSourced tokens := by
  refine allSourced_iff.2 ⟨h, ?_⟩
  simp [hchildren]

/-- **A token supplies at most one node** of a tidy tree of sourced nodes, if it is not the minus
of a negation. -/
theorem AllSourced.pairwise_negates {tokens : List Token} {e : Expr Float} {t : Token}
    (h : e.AllSourced tokens) (htidy : e.Tidy) (hlength : t.start < t.stop)
    (hunique : ∀ other ∈ tokens, other.span = t.span → other = t) :
    e.preorder.Pairwise (fun a b => t.Supplies a → t.Supplies b → t.Negates a b) := by
  induction htidy with
  | node e here below ih =>
      obtain ⟨hroot, hchildren⟩ := allSourced_iff.1 h
      -- a token that supplies a node below a child lies inside that child
      have hinside : ∀ c ∈ e.children, ∀ n ∈ c.preorder, t.Supplies n →
          t.span.Within c.span := by
        intro c hc n hn hsupplies
        have hn' := (below c hc).of_mem_preorder n hn
        have hsourced := hchildren c hc n hn
        exact (hsourced.within hn' hsupplies).trans ((below c hc).mem_preorder n hn).2
      rw [preorder_eq, List.pairwise_cons, preorderRow_eq_flatMap, List.pairwise_flatMap]
      refine ⟨?root, ?inside, ?across⟩
      case root =>
        intro b hb hsupplies hsupplies'
        obtain ⟨c, hc, hb⟩ := List.mem_flatMap.1 hb
        have hnegates := hroot.negates_of_within_child hlength hunique hsupplies hc
          (hinside c hc b hb hsupplies')
        -- the literal of a negation is the only node of its tree
        obtain ⟨hminus, rfl, hnegation⟩ := hnegates
        have hb' : b = .number (-1) t.span := by simpa [preorder] using hb
        exact ⟨hminus, hb', hb' ▸ hnegation⟩
      case inside =>
        intro c hc
        exact ih c hc (hchildren c hc)
      case across =>
        refine here.sequence.imp_of_mem ?_
        intro c d hc hd hbetween a ha b hb hsupplies hsupplies'
        have hc' : t.stop ≤ c.span.stop := (hinside c hc a ha hsupplies).2
        have hd' : d.span.start ≤ t.start := (hinside d hd b hb hsupplies').1
        omega

end Expr
end LinearCalc
