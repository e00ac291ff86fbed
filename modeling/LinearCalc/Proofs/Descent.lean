import LinearCalc.Parse
import LinearCalc.Proofs.Grouping

set_option autoImplicit false

/-! # Parsing step by step

The parser once more, as a machine works it off: one context that is handed on and changed, tokens
taken one by one, and loops that go round until they are left. Nothing here ends by itself. Every
loop and every recursion has a budget and the run fails when it is spent, and taking a token where
none is left fails as well. That a run never fails when its budget exceeds the length of the text,
and then does what `LinearCalc.parseText` does, is proved in the modules below this one.
-/

namespace LinearCalc
namespace Descent

/-- Why a run gives no result. -/
inductive Fault where
  /-- The budget is spent. -/
  | spent
  /-- A token was taken where none is left. -/
  | pastEnd
deriving DecidableEq

/-- What the parser keeps: the tokens still to read, where the last token taken stops, how many
brackets and minus signs are open, and what was found wrong so far. -/
structure Context where
  rest : List Token
  last : Nat
  depth : Nat
  diagnostics : List Diagnostic

namespace Context

def start (tokens : List Token) : Context := ⟨tokens, 0, 0, []⟩

def cursor (c : Context) : Cursor := ⟨c.rest, c.last⟩

def word? (c : Context) : Option Lexeme := c.rest.head?.map Token.lexeme

def advance (c : Context) : Except Fault (Token × Context) :=
  match c.rest with
  | [] => .error .pastEnd
  | token :: rest => .ok (token, { c with rest := rest, last := token.stop })

def report (c : Context) (found : List Diagnostic) : Context :=
  { c with diagnostics := c.diagnostics ++ found }

end Context

/-- What reads an operand or a chain. It is told where the operator before it stops. -/
abbrev Routine := Option Nat → Context → Except Fault (Expr Float × Context)

/-! ## Loops -/

/-- What one round of a loop leads to. -/
inductive Round (σ τ : Type) where
  | again (state : σ)
  | done (result : τ)

/-- Goes round, at most `budget` times, until a round leaves the loop. -/
def loop {σ τ : Type} (round : σ → Except Fault (Round σ τ)) : Nat → σ → Except Fault τ
  | 0, _ => .error .spent
  | budget + 1, state => do
    match ← round state with
    | .again state => loop round budget state
    | .done result => return result

/-! ## Chains -/

/-- One operator of the given tier with the operand after it, joined to what was read before. -/
def operatorRound (operand : Routine) (tier : Nat) (state : Expr Float × Context) :
    Except Fault (Round (Expr Float × Context) (Expr Float × Context)) :=
  match state.2.word? with
  | some (.sign s) =>
    if s.operator.tier = tier then do
      let (token, c) ← state.2.advance
      let (right, c) ← operand (some token.stop) c
      return .again (state.1.join ⟨s.operator, token.span, right⟩, c)
    else
      return .done state
  | _ => return .done state

/-- Reads a chain of the operators of the `n` tightest tiers. -/
def climb (operand : Routine) (budget : Nat) : Nat → Routine
  | 0 => operand
  | n + 1 => fun after c => do
    let (left, c) ← climb operand budget n after c
    loop (operatorRound (climb operand budget n) n) budget (left, c)

/-! ## Passing over -/

def minusRound (c : Context) : Except Fault (Round Context Context) :=
  match c.word? with
  | some (.sign .minus) => do
    let (_, c) ← c.advance
    return .again c
  | _ => return .done c

/-- Passes over one word, when `state.1` brackets are open. -/
def balanceRound (state : Nat × Context) : Except Fault (Round (Nat × Context) Context) :=
  match state.2.word? with
  | none => return .done state.2
  | some word =>
    if word.opens then do
      let (_, c) ← state.2.advance
      return .again (state.1 + 1, c)
    else if word.closes then
      if state.1 = 0 then
        return .done state.2
      else do
        let (_, c) ← state.2.advance
        if state.1 - 1 = 0 then return .done c else return .again (state.1 - 1, c)
    else if state.1 = 0 then
      if word.startsOperand then do
        let (_, c) ← state.2.advance
        return .done c
      else
        return .done state.2
    else do
      let (_, c) ← state.2.advance
      return .again (state.1, c)

def skip (budget : Nat) (c : Context) : Except Fault (Expr Float × Context) := do
  let reached ← loop minusRound budget (c.report [.nestedTooDeeply])
  let reached ← loop balanceRound budget (0, reached)
  return (.placeholder ⟨c.cursor.position, reached.last⟩, reached)

/-! ## Brackets and minus signs -/

def negation (operand : Routine) (c : Context) : Except Fault (Expr Float × Context) := do
  let (minus, c) ← c.advance
  match c.word? with
  | some (.number digits) =>
    let (token, c) ← c.advance
    return (.number (-(plainValue digits)) ⟨minus.start, token.stop⟩, c)
  | some (.sign .minus) | some (.mark .openParen) | some (.mark .openBracket) =>
    let (e, c) ← operand none c
    return (.binary .mul minus.span (.number (-1) minus.span) e ⟨minus.start, e.span.stop⟩, c)
  | _ => return (.number 0 minus.span, c.report [.expectedNumber])

def paren (expression : Routine) (c : Context) : Except Fault (Expr Float × Context) := do
  let (opening, c) ← c.advance
  let (inner, c) ← expression none c
  match c.word? with
  | some (.mark .closeParen) =>
    let (closing, c) ← c.advance
    return (.paren inner ⟨opening.start, closing.stop⟩, c)
  | _ => return (.paren inner ⟨opening.start, inner.span.stop⟩, c.report [.expectedCloseParen])

/-- One item of a matrix, or the bracket that closes it. -/
def itemRound (expression : Routine) (state : List Item × Context) :
    Except Fault (Round (List Item × Context) ((List Item × Option Token) × Context)) :=
  match state.2.word? with
  | none => return .done ((state.1, none), state.2.report [.expectedCloseBracket])
  | some word =>
    match word.role with
    | .close => do
      let (bracket, c) ← state.2.advance
      return .done ((state.1, some bracket), c)
    | .comma => do
      let (token, c) ← state.2.advance
      return .again (state.1 ++ [.comma token.span], c)
    | .semicolon => do
      let (token, c) ← state.2.advance
      return .again (state.1 ++ [.semicolon token.span], c)
    | .stray => do
      let (token, c) ← state.2.advance
      return .again (state.1, c.report [.unexpected token.lexeme])
    | .expression => do
      let (e, c) ← expression none state.2
      return .again (state.1 ++ [.element e], c)

def matrix (expression : Routine) (budget : Nat) (c : Context) :
    Except Fault (Expr Float × Context) := do
  let (opening, c) ← c.advance
  let ((items, close), c) ← loop (itemRound expression) budget ([], c)
  return (.matrix (rowsOfItems (lastSlotStop opening items close) items)
      ⟨opening.start, matrixStop opening items close⟩,
    c.report (List.replicate (surplus false items) .expectedSeparator))

/-! ## Operands -/

/-- Reads a bracket or a minus with all that belongs to it, one level further down, or passes over
it when there is no such level. -/
def nested (operand : Routine) (budget : Nat) (c : Context) :
    Except Fault (Expr Float × Context) :=
  if maxNesting ≤ c.depth then
    skip (budget + 1) c
  else do
    let inside := { c with depth := c.depth + 1 }
    let (e, c) ← match c.word? with
      | some (.mark .openBracket) => matrix (climb operand budget 4) budget inside
      | some (.mark .openParen) => paren (climb operand budget 4) inside
      | _ => negation operand inside
    return (e, { c with depth := c.depth - 1 })

def missing (after : Option Nat) (c : Context) : Expr Float × Context :=
  match after with
  | some stop => (.placeholder (.point stop), c.report [.expectedOperand])
  | none => (.number 0 (.point c.cursor.position), c.report [.expectedNumber])

/-- Reads an operand, in which operands may be nested at most `budget` deep. -/
def operand : Nat → Routine
  | 0 => fun _ _ => .error .spent
  | budget + 1 => fun after c =>
    match c.word? with
    | some (.mark .transpose) => do
      let (token, c) ← c.advance
      return (.symbol "T" token.span, c)
    | some (.number digits) => do
      let (token, c) ← c.advance
      return (.number (plainValue digits) token.span, c)
    | some word =>
      if word.startsOperand then nested (operand budget) budget c else return missing after c
    | none => return missing after c

def expression (budget : Nat) : Routine := climb (operand budget) budget 4

/-! ## Texts -/

def parse (budget : Nat) (tokens : List Token) :
    Except Fault (Expr Float × List Diagnostic) := do
  let (e, c) ← expression budget none (.start tokens)
  match c.word? with
  | none => return (e, c.diagnostics)
  | some word => return (e, (c.report [.unexpected word]).diagnostics)

/-- Takes one word off the text, or passes over one character. -/
def wordRound (state : List Token × Nat × List Char) :
    Except Fault (Round (List Token × Nat × List Char) (List Token)) :=
  match state with
  | (found, _, []) => return .done found
  | (found, offset, c :: rest) =>
    match munch c rest with
    | none => return .again (found, offset + 1, rest)
    | some word =>
      return .again (found ++ [⟨word, offset⟩], offset + word.length,
        (c :: rest).drop word.length)

def parseText (budget : Nat) (text : String) : Except Fault (Expr Float × List Diagnostic) := do
  let tokens ← loop wordRound budget ([], 0, text.toList)
  parse budget tokens

end Descent
end LinearCalc
