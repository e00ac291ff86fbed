import LinearCalc.Expr

set_option autoImplicit false

/-! # Readings

The vocabulary of the parser. A place in a list of tokens is a `Cursor`; reading from it gives a
value, diagnostics and the place after it. An `OperandReader` reads one operand and promises two
things about what it leaves: it is always a suffix of what was there, and a proper one whenever
there was an operand to read. All loops of the parser end because of these promises.

A diagnostic says what a reader found missing or superfluous. It never stops the reading; it records
that something had to be made up or passed over.
-/

namespace LinearCalc

/-! ## Diagnostics -/

/-- How many brackets and minus signs may be open around one another. -/
def maxNesting : Nat := 50

/-- One finding about a text. -/
inductive Diagnostic where
  /-- An expression starts with something that is no operand. -/
  | expectedNumber
  /-- An operator is not followed by an operand. -/
  | expectedOperand
  /-- A parenthesis is not closed. -/
  | expectedCloseParen
  /-- A matrix is not closed. -/
  | expectedCloseBracket
  /-- Two elements of a matrix stand side by side. -/
  | expectedSeparator
  /-- A word stands where nothing can be made of it. -/
  | unexpected (word : Lexeme)
  /-- A bracket or a minus stands inside too many others. -/
  | nestedTooDeeply
deriving DecidableEq, Repr

namespace Diagnostic

def message : Diagnostic → String
  | expectedNumber => "Expected Number"
  | expectedOperand => "Expected operand"
  | expectedCloseParen => "Expected RParen"
  | expectedCloseBracket => "Expected RBracket"
  | expectedSeparator => "Expected ',' or ';'"
  | unexpected word => "Unexpected token '" ++ word.text ++ "'"
  | nestedTooDeeply => "Expression nested too deeply (>" ++ toString maxNesting ++ " levels)"

end Diagnostic

/-! ## Places and readings -/

/-- The tokens still to read, and the offset where the last token read stops. -/
structure Cursor where
  rest : List Token
  last : Nat

/-- What reading gives: a value, what was found missing, and the place reached. -/
structure Reading (β : Type) where
  value : β
  diagnostics : List Diagnostic
  cursor : Cursor

namespace Cursor

/-- The place right after `token`, when `rest` follows it. -/
def after (token : Token) (rest : List Token) : Cursor := ⟨rest, token.stop⟩

@[simp] theorem rest_after (token : Token) (rest : List Token) : (after token rest).rest = rest :=
  rfl

@[simp] theorem last_after (token : Token) (rest : List Token) :
    (after token rest).last = token.stop := rfl

/-- Where a node belongs that should be here and is not: at the next token, or after the last one
when there is none. -/
def position (c : Cursor) : Nat :=
  match c.rest with
  | token :: _ => token.start
  | [] => c.last

end Cursor

namespace Reading

variable {β γ : Type}

def map (f : β → γ) (r : Reading β) : Reading γ := ⟨f r.value, r.diagnostics, r.cursor⟩

/-- A reading that comes after diagnostics already found. -/
def precededBy (found : List Diagnostic) (r : Reading β) : Reading β :=
  ⟨r.value, found ++ r.diagnostics, r.cursor⟩

section Fields

variable (f : β → γ) (found : List Diagnostic) (r : Reading β)

@[simp] theorem value_map : (r.map f).value = f r.value := rfl

@[simp] theorem diagnostics_map : (r.map f).diagnostics = r.diagnostics := rfl

@[simp] theorem cursor_map : (r.map f).cursor = r.cursor := rfl

@[simp] theorem value_precededBy : (r.precededBy found).value = r.value := rfl

@[simp] theorem diagnostics_precededBy :
    (r.precededBy found).diagnostics = found ++ r.diagnostics := rfl

@[simp] theorem cursor_precededBy : (r.precededBy found).cursor = r.cursor := rfl

end Fields

@[simp] theorem map_mk (f : β → γ) (value : β) (diagnostics : List Diagnostic) (c : Cursor) :
    map f ⟨value, diagnostics, c⟩ = ⟨f value, diagnostics, c⟩ := rfl

@[simp] theorem precededBy_mk (found : List Diagnostic) (value : β)
    (diagnostics : List Diagnostic) (c : Cursor) :
    precededBy found ⟨value, diagnostics, c⟩ = ⟨value, found ++ diagnostics, c⟩ := rfl

@[simp] theorem map_map {δ : Type} (g : γ → δ) (f : β → γ) (r : Reading β) :
    (r.map f).map g = r.map (fun b => g (f b)) := rfl

@[simp] theorem precededBy_map (f : β → γ) (found : List Diagnostic) (r : Reading β) :
    (r.map f).precededBy found = (r.precededBy found).map f := rfl

@[simp] theorem precededBy_precededBy (found found' : List Diagnostic) (r : Reading β) :
    (r.precededBy found').precededBy found = r.precededBy (found ++ found') := by
  simp [precededBy]

end Reading

/-- Reads one operand. It is told where the operator before it stops, if there is one, because
that is where a missing operand belongs. -/
structure OperandReader where
  read : Option Nat → Cursor → Reading (Expr Float)
  suffix : ∀ after c, (read after c).cursor.rest <:+ c.rest
  advances : ∀ after token rest last, token.lexeme.startsOperand = true →
    (read after ⟨token :: rest, last⟩).cursor.rest <:+ rest

end LinearCalc
