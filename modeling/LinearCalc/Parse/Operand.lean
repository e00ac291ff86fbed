import LinearCalc.Number.Numeral
import LinearCalc.Parse.Chain
import LinearCalc.Parse.Skip
import LinearCalc.Parse.Slots

set_option autoImplicit false

/-! # Operands

Reading one operand: a number, the mark `T`, a minus with what follows it, an expression in
parentheses, or a matrix. The last three may contain operands again, and are read by an inner
reader; at the nesting limit there is none, and the operand is passed over. `operandReader n`
stacks `n` readers this way, so the nesting of a tree is bounded by the way its reader is built.
-/

namespace LinearCalc

/-! ## Missing operands -/

/-- Stands in for an operand that is not there: a placeholder right after an operator, and a zero
where an expression should start. -/
def missingOperand (after : Option Nat) (c : Cursor) : Reading (Expr Float) :=
  match after with
  | some stop => ⟨.placeholder (.point stop), [.expectedOperand], c⟩
  | none => ⟨.number 0 (.point c.position), [.expectedNumber], c⟩

/-! ## Parentheses -/

/-- Reads what follows an opening parenthesis. One that is not closed ends with its content. -/
def readParen (operand : OperandReader) (token : Token) (rest : List Token) :
    Reading (Expr Float) :=
  let inner := chain operand (.after token rest)
  let unclosed := ⟨.paren inner.value ⟨token.start, inner.value.span.stop⟩,
    inner.diagnostics ++ [.expectedCloseParen], inner.cursor⟩
  match inner.cursor.rest with
  | [] => unclosed
  | next :: more =>
    if next.lexeme = .mark .closeParen then
      ⟨.paren inner.value ⟨token.start, next.stop⟩, inner.diagnostics, .after next more⟩
    else
      unclosed

/-! ## Matrices -/

/-- What the next word means between the brackets of a matrix. -/
inductive Role where
  | close
  | comma
  | semicolon
  | stray
  | expression
deriving DecidableEq

/-- The role of a word between the brackets of a matrix: a closing parenthesis is stray there,
and all that neither closes nor separates belongs to an expression. -/
def Lexeme.role : Lexeme → Role
  | .mark .closeBracket => .close
  | .mark .comma => .comma
  | .mark .semicolon => .semicolon
  | .mark .closeParen => .stray
  | _ => .expression

@[grind =] theorem Lexeme.role_eq_expression_iff {l : Lexeme} :
    l.role = .expression ↔ l ≠ mark .closeBracket ∧ l ≠ mark .comma ∧ l ≠ mark .semicolon ∧
      l ≠ mark .closeParen := by
  unfold role
  grind

/-- A word that belongs to an expression is an operator or starts an operand. -/
theorem Lexeme.startsOperand_or_sign_of_role {l : Lexeme} (h : l.role = .expression) :
    l.startsOperand = true ∨ ∃ s, l = .sign s := by
  match l with
  | .number _ => exact .inl rfl
  | .sign s => exact .inr ⟨s, rfl⟩
  | .mark m => cases m <;> first | exact .inl rfl | exact absurd h (by decide)

/-- Reads the items of a matrix up to the bracket that closes it, which is also returned; there
is none when the tokens run out first. -/
def readItems (operand : OperandReader) (last : Nat) :
    List Token → Reading (List Item × Option Token)
  | [] => ⟨([], none), [.expectedCloseBracket], ⟨[], last⟩⟩
  | token :: rest =>
    match _hrole : token.lexeme.role with
    | .close => ⟨([], some token), [], .after token rest⟩
    | .comma =>
      (readItems operand token.stop rest).map (fun r => (.comma token.span :: r.1, r.2))
    | .semicolon =>
      (readItems operand token.stop rest).map (fun r => (.semicolon token.span :: r.1, r.2))
    | .stray => (readItems operand token.stop rest).precededBy [.unexpected token.lexeme]
    | .expression =>
      let element := chain operand ⟨token :: rest, last⟩
      let more := readItems operand element.cursor.last element.cursor.rest
      (more.map (fun r => (.element element.value :: r.1, r.2))).precededBy element.diagnostics
termination_by tokens => tokens.length
decreasing_by
  · simp
  · simp
  · simp
  -- an expression begins with a token that it uses up
  · have hs := (chain_advances operand token rest last
      (Lexeme.startsOperand_or_sign_of_role _hrole)).length_le
    simp at hs ⊢
    omega

/-- Where the last slot of a matrix ends: before the closing bracket, or else after the last item,
or after the opening bracket when there is no item. -/
def lastSlotStop (token : Token) (items : List Item) (close : Option Token) : Nat :=
  match close with
  | some bracket => bracket.start
  | none => (items.getLast?.map (fun item => item.span.stop)).getD token.stop

/-- Where a matrix ends: after the closing bracket, or else where its last slot does. -/
def matrixStop (token : Token) (items : List Item) (close : Option Token) : Nat :=
  match close with
  | some bracket => bracket.stop
  | none => lastSlotStop token items none

def readMatrix (operand : OperandReader) (token : Token) (rest : List Token) :
    Reading (Expr Float) :=
  let found := readItems operand token.stop rest
  let (items, close) := found.value
  ⟨.matrix (rowsOfItems (lastSlotStop token items close) items)
      ⟨token.start, matrixStop token items close⟩,
    found.diagnostics ++ List.replicate (surplus false items) .expectedSeparator,
    found.cursor⟩

/-! ## Minus signs -/

/-- Reads what follows a minus in front of an operand. A number takes the sign itself; a bracket
or another minus is multiplied by `-1`; before anything else the minus stands for a zero. -/
def readNegation (operand : OperandReader) (token : Token) (rest : List Token) :
    Reading (Expr Float) :=
  let bare := ⟨.number 0 token.span, [.expectedNumber], .after token rest⟩
  match rest with
  | [] => bare
  | next :: more =>
    match next.lexeme with
    -- the sign belongs to the number
    | .number digits =>
      ⟨.number (-(plainValue digits)) ⟨token.start, next.stop⟩, [], .after next more⟩
    | .sign .minus | .mark .openParen | .mark .openBracket =>
      (operand.read none (.after token rest)).map (fun e =>
        .binary .mul token.span (.number (-1) token.span) e ⟨token.start, e.span.stop⟩)
    | _ => bare

/-! ## Operands -/

/-- Reads one operand with the readers for what stands inside it. -/
def readNested (inner : OperandReader) (token : Token) (rest : List Token) :
    Reading (Expr Float) :=
  match token.lexeme with
  | .mark .openBracket => readMatrix inner token rest
  | .mark .openParen => readParen inner token rest
  | _ => readNegation inner token rest

def passOver (c : Cursor) : Reading (Expr Float) :=
  let reached := skipOperand c
  ⟨.placeholder ⟨c.position, reached.last⟩, [.nestedTooDeeply], reached⟩

/-- Reads one operand, where `inner` reads the operands inside it, or there is no `inner` because
the nesting limit is reached. -/
def readOperand (inner : Option OperandReader) (after : Option Nat) (c : Cursor) :
    Reading (Expr Float) :=
  match c.rest with
  | [] => missingOperand after c
  | token :: rest =>
    match token.lexeme with
    -- these two contain nothing, so that they can stand at any depth
    | .mark .transpose => ⟨.symbol "T" token.span, [], .after token rest⟩
    | .number digits => ⟨.number (plainValue digits) token.span, [], .after token rest⟩
    | _ =>
      if token.lexeme.startsOperand then
        match inner with
        | none => passOver c
        | some inner => readNested inner token rest
      else
        missingOperand after c

/-! ## What reading leaves -/

theorem readParen_suffix (operand : OperandReader) (token : Token) (rest : List Token) :
    (readParen operand token rest).cursor.rest <:+ rest := by
  have hchain := chain_suffix operand (.after token rest)
  unfold readParen
  generalize chain operand (.after token rest) = inner at hchain
  simp only [Cursor.rest_after] at hchain ⊢
  split
  · exact hchain
  · rename_i next more heq
    split
    · exact ((List.suffix_cons next more).trans (heq ▸ List.suffix_refl _)).trans hchain
    · exact hchain

theorem readItems_suffix (operand : OperandReader) (last : Nat) (tokens : List Token) :
    (readItems operand last tokens).cursor.rest <:+ tokens := by
  fun_induction readItems operand last tokens with
  | case1 => exact List.suffix_refl _
  | case2 => exact List.suffix_cons _ _
  | case3 _ _ _ _ ih => exact ih.trans (List.suffix_cons _ _)
  | case4 _ _ _ _ ih => exact ih.trans (List.suffix_cons _ _)
  | case5 _ _ _ _ ih => exact ih.trans (List.suffix_cons _ _)
  | case6 last token rest h element more ih => exact ih.trans (chain_suffix operand _)

theorem readMatrix_suffix (operand : OperandReader) (token : Token) (rest : List Token) :
    (readMatrix operand token rest).cursor.rest <:+ rest :=
  readItems_suffix operand token.stop rest

theorem readNegation_suffix (operand : OperandReader) (token : Token) (rest : List Token) :
    (readNegation operand token rest).cursor.rest <:+ rest := by
  unfold readNegation
  cases rest with
  | nil => exact List.suffix_refl _
  | cons next more =>
    dsimp only
    split
    · exact List.suffix_cons _ _
    · exact operand.suffix none _
    · exact operand.suffix none _
    · exact operand.suffix none _
    · exact List.suffix_refl _

theorem readNested_suffix (inner : OperandReader) (token : Token) (rest : List Token) :
    (readNested inner token rest).cursor.rest <:+ rest := by
  unfold readNested
  split
  · exact readMatrix_suffix inner token rest
  · exact readParen_suffix inner token rest
  · exact readNegation_suffix inner token rest

theorem missingOperand_cursor (after : Option Nat) (c : Cursor) :
    (missingOperand after c).cursor = c := by
  unfold missingOperand
  cases after <;> rfl

theorem readOperand_advances (inner : Option OperandReader) (after : Option Nat) (token : Token)
    (rest : List Token) (last : Nat) (h : token.lexeme.startsOperand = true) :
    (readOperand inner after ⟨token :: rest, last⟩).cursor.rest <:+ rest := by
  unfold readOperand
  dsimp only
  split
  · exact List.suffix_refl _
  · exact List.suffix_refl _
  · rw [if_pos h]
    cases inner with
    | none => exact skipOperand_advances token rest last h
    | some inner => exact readNested_suffix inner token rest

theorem readOperand_suffix (inner : Option OperandReader) (after : Option Nat) (c : Cursor) :
    (readOperand inner after c).cursor.rest <:+ c.rest := by
  obtain ⟨rest, last⟩ := c
  cases rest with
  | nil =>
    exact ⟨[], congrArg Cursor.rest (missingOperand_cursor after ⟨[], last⟩)⟩
  | cons token rest =>
    by_cases h : token.lexeme.startsOperand = true
    · exact (readOperand_advances inner after token rest last h).trans (List.suffix_cons _ _)
    -- no operand starts here, so the three branches left read one token or none
    · unfold readOperand
      dsimp only
      split
      · exact List.suffix_cons _ _
      · exact List.suffix_cons _ _
      · rw [if_neg h]
        exact ⟨[], congrArg Cursor.rest (missingOperand_cursor after ⟨token :: rest, last⟩)⟩

/-! ## The readers -/

/-- The reader whose operands are read by `inner`. -/
def OperandReader.around (inner : Option OperandReader) : OperandReader where
  read := readOperand inner
  suffix := readOperand_suffix inner
  advances := readOperand_advances inner

/-- The reader of operands inside which brackets and minus signs may be nested `n` deep. -/
def operandReader : Nat → OperandReader
  | 0 => .around none
  | n + 1 => .around (some (operandReader n))

end LinearCalc
