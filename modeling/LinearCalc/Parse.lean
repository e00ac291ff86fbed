import LinearCalc.Expr.Walk
import LinearCalc.Parse.Operand

set_option autoImplicit false

/-! # Parsing

The expression a list of tokens stands for. Parsing always gives a tree: what is missing is made
up, what is superfluous is left out, and each such step is reported as a diagnostic. A list of
tokens without diagnostics is an expression of the grammar

    sum     := product (('+' | '-') product)*
    product := power (('*' | '/') power)*
    power   := vector ('^' vector)*
    vector  := operand (('.' | '×') operand)*
    operand := number | 'T' | '-' operand | '(' sum ')' | '[' slot ((',' | ';') slot)* ']'
    slot    := nothing | sum

in which `T` may not follow a minus.

There are limits to how long a text and how deep its tree may be. Beyond them an expression is
rejected before anything is computed; within them, every function that follows a tree goes down at
most as many levels as are allowed here.
-/

namespace LinearCalc

/-- The expression that `tokens` stand for, and what was found wrong with them. Tokens after the
end of the expression are ignored, and the first of them is reported. -/
def parse (tokens : List Token) : Expr Float × List Diagnostic :=
  let whole := chain (operandReader maxNesting) ⟨tokens, 0⟩
  match whole.cursor.rest with
  | [] => (whole.value, whole.diagnostics)
  | token :: _ => (whole.value, whole.diagnostics ++ [.unexpected token.lexeme])

def parseText (text : String) : Expr Float × List Diagnostic := parse (tokenize text)

/-! ## Limits -/

def maxLength : Nat := 10000

def maxLevels : Nat := 100

/-- Why a text is rejected. -/
inductive Rejection where
  | tooLong
  | tooDeep
deriving DecidableEq, Repr

namespace Rejection

def message : Rejection → String
  | tooLong => "Input too long (>" ++ toString maxLength ++ " characters)"
  | tooDeep => "Expression too deeply nested (>" ++ toString maxLevels ++ " levels)"

def code : Rejection → String
  | tooLong => "TOO_LONG"
  | tooDeep => "TOO_DEEP"

end Rejection

def parseWithin (text : String) : Except Rejection (Expr Float × List Diagnostic) :=
  if text.length > maxLength then .error .tooLong
  else
    let parsed := parseText text
    if parsed.1.levels > maxLevels then .error .tooDeep else .ok parsed

/-- Checks a text without evaluating it: whether it is an expression, and if not, why. -/
def validate (text : String) : Bool × List String :=
  match parseWithin text with
  | .error rejection => (false, [rejection.message])
  | .ok (_, diagnostics) => (diagnostics.isEmpty, diagnostics.map Diagnostic.message)

end LinearCalc
