import LinearCalc.Parse
import LinearCalc.Output.Tree
import LinearCalc.Render.Formula
import LinearCalc.Render.Result
import LinearCalc.Text.Quoted

set_option autoImplicit false

/-! # Evaluating texts

From a text to its result. An `Outcome` holds whatever of a result there is: whether it is one at
all, its text in plain and in LaTeX, its tree, the diagnostics of the parser, and an error.
-/

namespace LinearCalc

/-- What comes of evaluating or plotting something. -/
structure Outcome where
  ok : Bool
  result : Option String := none
  latex : Option String := none
  value : Option (Expr Float) := none
  diagnostics : List String := []
  error : Option String := none

namespace Outcome

def failure (message : String) : Outcome := ⟨false, none, none, none, [], some message⟩

/-- A field that is left out when there is nothing to put into it. -/
def field {β : Type} (name : String) (f : β → Data) : Option β → List (String × Data)
  | none => []
  | some b => [(name, f b)]

/-- An outcome as a record of the fields it has. -/
def toData (o : Outcome) : Data :=
  .record (("ok", .truth o.ok) ::
    (field "result" .text o.result ++ field "latex" .text o.latex ++
      field "value" Expr.toData o.value ++
      (if o.diagnostics.isEmpty then [] else [("diagnostics", Data.texts o.diagnostics)]) ++
      field "error" .text o.error))

/-- A text that may be missing, as it is shown. -/
def quotedOption : Option String → String
  | none => "None"
  | some s => quoted s

def part {β : Type} (name : String) (f : β → String) : Option β → List String
  | none => []
  | some b => [name ++ "=" ++ f b]

/-- An outcome on one line: the error of a failure, and what there is to see otherwise. -/
def summary (o : Outcome) : String :=
  if o.ok then
    "EvalResult(" ++
      ", ".intercalate ("ok=True" :: (part "result" quoted o.result ++
        part "latex" quoted o.latex ++
        (if o.diagnostics.isEmpty then [] else ["diagnostics=" ++ quotedList o.diagnostics]))) ++
      ")"
  else
    "EvalResult(ok=False, error=" ++ quotedOption o.error ++ ")"

end Outcome

def invalidOperation : String := "Invalid operation (result is NaN)"

def outcomeOf (precision : Int) (tree : Expr Float) (diagnostics : List Diagnostic) : Outcome :=
  let value := tree.simplify
  -- there is a text even for what has no value
  { ok := !value.isInvalid
    result := some (value.resultText precision)
    latex := some (value.resultLatex precision)
    value := some value
    diagnostics := diagnostics.map Diagnostic.message
    error := if value.isInvalid then some invalidOperation else none }

/-- Evaluates a text, with so many significant digits in the result. -/
def evaluate (text : String) (precision : Int) : Outcome :=
  match parseWithin text with
  | .error rejection => .failure rejection.message
  | .ok (tree, diagnostics) => outcomeOf precision tree diagnostics

def formulaOf (text : String) : Except Rejection (Except UnknownSign String) :=
  (parseWithin text).map (fun parsed => parsed.1.latex)

end LinearCalc
