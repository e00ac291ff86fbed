import LinearCalc.Expr
import LinearCalc.Output.Data

set_option autoImplicit false

/-! # Tokens and trees as data

The records in which tokens and the nodes of expressions are put out. Every record of a node
begins with its kind and ends with its span.
-/

namespace LinearCalc

def Lexeme.kind : Lexeme → String
  | number _ => "Number"
  | sign .plus => "Add"
  | sign .minus => "Sub"
  | sign .star => "Mult"
  | sign .slash => "Div"
  | sign .caret => "Exp"
  | sign .dot => "Dot"
  | sign .letterX => "Cross"
  | sign .times => "Cross"
  | mark _ => "Char"

def Token.toData (t : Token) : Data :=
  .record [("kind", .text t.lexeme.kind), ("text", .text t.lexeme.text), ("start", .offset t.start),
    ("end", .offset t.stop)]

namespace Expr

def kind {α : Type} : Expr α → String
  | number _ _ => "NumberLiteral"
  | symbol _ _ => "CharLiteral"
  | placeholder _ => "Placeholder"
  | paren _ _ => "ParenExpression"
  | matrix _ _ => "MatrixExpression"
  | binary _ _ _ _ _ => "BinaryExpression"
  | unsupported _ _ _ _ _ => "BinaryExpression"

/-- The value of a number; what is not finite is given as text. -/
def numberData (v : Float) : Data := if v.isFinite then .decimal v else .text (shortestText v)

/-- The record of a node with its own fields. -/
def nodeData (kind : String) (fields : List (String × Data)) (s : Span) : Data :=
  .record (("kind", .text kind) ::
    (fields ++ [("start", .offset s.start), ("end", .offset s.stop)]))

def operationFields (sign : String) (os : Span) (left right : Data) : List (String × Data) :=
  [("op", .text sign), ("opStart", .offset os.start), ("opEnd", .offset os.stop), ("left", left),
    ("right", right)]

mutual

def toData : Expr Float → Data
  | number v s => nodeData "NumberLiteral" [("value", numberData v)] s
  | symbol text s => nodeData "CharLiteral" [("value", .text text)] s
  | placeholder s => nodeData "Placeholder" [] s
  | paren inner s => nodeData "ParenExpression" [("expr", toData inner)] s
  | matrix rows s => nodeData "MatrixExpression" [("matrix", .list (toDataRows rows))] s
  | binary op os left right s =>
    nodeData "BinaryExpression" (operationFields op.symbol os (toData left) (toData right)) s
  | unsupported sign os left right s =>
    nodeData "BinaryExpression" (operationFields sign os (toData left) (toData right)) s

def toDataRows : List (List (Expr Float)) → List Data
  | [] => []
  | row :: rows => .list (toDataRow row) :: toDataRows rows

def toDataRow : List (Expr Float) → List Data
  | [] => []
  | e :: row => toData e :: toDataRow row

end

end Expr

end LinearCalc
