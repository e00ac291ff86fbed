import LinearCalc.Parse.Reading

set_option autoImplicit false

/-! # Chains of operators

An expression outside brackets is a chain: an operand, then operators each followed by an
operand. Reading a chain and grouping it are two steps. `chain` reads it from left to right;
`assemble` then joins neighbours, tightest operators first, and operators that bind alike from
the left, so that `2^3^2` is `(2^3)^2`.
-/

namespace LinearCalc

/-- An operator of a chain with the operand after it. -/
structure Link where
  op : Operator
  opSpan : Span
  operand : Expr Float

namespace Expr

/-- Two operands joined by an operator, spanning both. -/
def join (left : Expr Float) (link : Link) : Expr Float :=
  .binary link.op link.opSpan left link.operand ⟨left.span.start, link.operand.span.stop⟩

end Expr

/-! ## Grouping -/

/-- Joins, from the left, the neighbours in a chain whose operators bind with strength `level`. -/
def fuse (level : Nat) : Expr Float → List Link → Expr Float × List Link
  | first, [] => (first, [])
  | first, link :: more =>
    if link.op.binding = level then
      fuse level (first.join link) more
    else
      -- nothing is joined across this operator: what comes before it is done
      let (operand, more) := fuse level link.operand more
      (first, { link with operand := operand } :: more)

/-- Groups a whole chain: the tightest level first, down to the loosest, which leaves nothing. -/
def assemble (first : Expr Float) (links : List Link) : Expr Float :=
  let (first, links) := fuse 3 first links
  let (first, links) := fuse 2 first links
  let (first, links) := fuse 1 first links
  (fuse 0 first links).1

/-! ## Reading -/

/-- The links of a chain: as long as a sign comes next, that sign and the operand after it. -/
def links (operand : OperandReader) (last : Nat) : List Token → Reading (List Link)
  | [] => ⟨[], [], ⟨[], last⟩⟩
  | token :: rest =>
    match token.lexeme with
    | .sign s =>
      let right := operand.read (some token.stop) (.after token rest)
      let more := links operand right.cursor.last right.cursor.rest
      (more.map (⟨s.operator, token.span, right.value⟩ :: ·)).precededBy right.diagnostics
    | _ => ⟨[], [], ⟨token :: rest, last⟩⟩
termination_by tokens => tokens.length
decreasing_by
  have h := (operand.suffix (some token.stop) (.after token rest)).length_le
  simp at h ⊢
  omega

/-- Reads a chain and groups it. -/
def chain (operand : OperandReader) (c : Cursor) : Reading (Expr Float) :=
  let first := operand.read none c
  let more := links operand first.cursor.last first.cursor.rest
  (more.map (assemble first.value)).precededBy first.diagnostics

/-! ## What reading leaves -/

theorem links_suffix (operand : OperandReader) (last : Nat) (tokens : List Token) :
    (links operand last tokens).cursor.rest <:+ tokens := by
  fun_induction links operand last tokens with
  | case1 => exact List.suffix_refl _
  | case2 last token rest s h right more ih =>
    exact (ih.trans (operand.suffix (some token.stop) (.after token rest))).trans
      (List.suffix_cons _ _)
  | case3 => exact List.suffix_refl _

theorem chain_suffix (operand : OperandReader) (c : Cursor) :
    (chain operand c).cursor.rest <:+ c.rest :=
  (links_suffix operand _ _).trans (operand.suffix none c)

/-- A chain moves on when the next token is an operator or starts an operand. -/
theorem chain_advances (operand : OperandReader) (token : Token) (rest : List Token) (last : Nat)
    (h : token.lexeme.startsOperand = true ∨ ∃ s, token.lexeme = .sign s) :
    (chain operand ⟨token :: rest, last⟩).cursor.rest <:+ rest := by
  by_cases hs : token.lexeme.startsOperand = true
  · exact (links_suffix operand _ _).trans (operand.advances none token rest last hs)
  · obtain ⟨s, hsign⟩ := h.resolve_left hs
    have hfirst := operand.suffix none ⟨token :: rest, last⟩
    show (links operand (operand.read none ⟨token :: rest, last⟩).cursor.last
      (operand.read none ⟨token :: rest, last⟩).cursor.rest).cursor.rest <:+ rest
    generalize operand.read none ⟨token :: rest, last⟩ = first at hfirst
    -- either the operand was missing and the sign is still there, or it has been passed already
    rcases List.suffix_cons_iff.1 hfirst with heq | hsub
    · rw [heq, links, hsign]
      exact (links_suffix operand _ _).trans (operand.suffix _ (.after token rest))
    · exact (links_suffix operand _ _).trans hsub

end LinearCalc
