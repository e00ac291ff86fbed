import LinearCalc.Log.Activity
import LinearCalc.Output.Display
import LinearCalc.Precision

set_option autoImplicit false

/-! # Responses

What the program does when it is asked for something: what it prints, what it adds to the log, and
whether it has succeeded.
-/

namespace LinearCalc

structure Response where
  output : String
  records : List LogRecord
  ok : Bool

namespace Response

def print (text : String) : Response := ⟨text, [], true⟩

def ofOutcome (o : Outcome) (format : Format) (latex : Bool) (records : List LogRecord) :
    Response :=
  ⟨o.display format latex, records, o.ok⟩

/-- The response to asking for the value of a text. -/
def evaluation (text : String) (precision : Precision) (format : Format) (latex : Bool) :
    Except Breakdown Response :=
  (evaluateAt text precision).map (fun o => .ofOutcome o format latex (evaluationRecords text))

/-- The response to asking for the tokens of a text. There is no limit on its length. -/
def tokens (text : String) (format : Format) : Response :=
  ⟨displayTokens text format, [scanRecord text], true⟩

/-- A text can be parsed within the limits. -/
def isAccepted (text : String) : Bool := (parseWithin text).isOk

/-- The response to asking for the tree of a text. -/
def tree (text : String) : Response := ⟨displayTree text, parseRecords text, isAccepted text⟩

/-- The response to asking for the formula of a text. -/
def formula (text : String) : Response := ⟨displayFormula text, parseRecords text, isAccepted text⟩

def plot (r : PlotRequest) (painter : Painter) (format : Format) : Response :=
  let records := r.records painter
  match (r.plot painter).outcome r.destination with
  | .ok o => .ofOutcome o format false records
  | .error _ => ⟨"", records, false⟩

end Response

end LinearCalc
