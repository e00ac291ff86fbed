import LinearCalc.Evaluate
import LinearCalc.Text.Characters

set_option autoImplicit false

/-! # Displays

What is printed for the results of the calculator: outcomes, lists of tokens, trees and formulas.
For people an outcome is a few lines, warnings first and an error last; tokens are a table.
-/

namespace LinearCalc

inductive Format where
  | json
  | human
deriving DecidableEq, Repr

namespace Format

def name : Format → String
  | json => "json"
  | human => "human"

def all : List Format := [json, human]

end Format

def errorLine (message : String) : String := "Error: " ++ message

/-! ## Outcomes -/

namespace Outcome

def lines (o : Outcome) (latex : Bool) : List String :=
  o.diagnostics.map ("Warning: " ++ ·) ++ o.result.toList ++
    (if latex then o.latex.toList.map ("LaTeX: " ++ ·) else []) ++
    (if o.ok then [] else [errorLine (o.error.getD "None")])

/-- An outcome as it is printed. Only people have to ask for LaTeX. -/
def display (o : Outcome) (format : Format) (latex : Bool) : String :=
  match format with
  | .json => printLines [o.toData.toJson]
  | .human => printLines (o.lines latex)

end Outcome

/-! ## Tokens -/

/-- Fills up a text with blanks to the given width. -/
def padRight (width : Nat) (text : String) : String :=
  text ++ String.ofList (List.replicate (width - text.length) ' ')

def Token.line (t : Token) : String :=
  padRight 7 t.lexeme.kind ++ " " ++ padRight 6 (quoted t.lexeme.text) ++ " [" ++
    toString t.start ++ ", " ++ toString t.stop ++ ")"

def displayTokens (text : String) (format : Format) : String :=
  match format with
  | .json => printLines [(Data.list ((tokenize text).map Token.toData)).toJson]
  | .human => printLines ((tokenize text).map Token.line)

/-! ## Trees and formulas -/

/-- A tree and what was found wrong with its text. -/
def treeData (tree : Expr Float) (diagnostics : List Diagnostic) : Data :=
  .record [("tree", tree.toData),
    ("diagnostics", Data.texts (diagnostics.map Diagnostic.message))]

def displayTree (text : String) : String :=
  match parseWithin text with
  | .error rejection => printLines [errorLine rejection.message]
  | .ok (tree, diagnostics) => printLines [(treeData tree diagnostics).toJson]

def displayFormula (text : String) : String :=
  match formulaOf text with
  | .error rejection => printLines [errorLine rejection.message]
  | .ok (.error unknown) => printLines [errorLine (quoted unknown.sign)]
  | .ok (.ok formula) => printLines [formula]

end LinearCalc
