import LinearCalc.Response

set_option autoImplicit false

/-! # Health check

A short examination of the calculator: its components and their versions, and whether it gets one
scalar and one matrix right.
-/

namespace LinearCalc

/-- The components that formulas, matrices and drawings are made with, as they are called in the
report. -/
def componentNames : List String := ["SymPy", "NumPy", "Matplotlib"]

/-- An expression to be evaluated, and how to tell whether the outcome is right. -/
structure Examination where
  title : String
  text : String
  isRight : Outcome → Bool

namespace Examination

def scalar : Examination :=
  ⟨"Scalar", "(2+3)*4", fun o => o.ok && o.result == some "20"⟩

/-- The text `part` occurs in a text. -/
def occursIn (part : List Char) : List Char → Bool
  | [] => part.isEmpty
  | c :: more => part.isPrefixOf (c :: more) || occursIn part more

def matrix : Examination :=
  ⟨"Matrix", "[1,2;3,4]*[5,6;7,8]",
    fun o => o.ok && o.latex.any (fun text => occursIn "19".toList text.toList)⟩

def all : List Examination := [scalar, matrix]

def outcome (e : Examination) : Outcome := evaluate e.text defaultPrecision

def passes (e : Examination) : Bool := e.isRight e.outcome

def line (e : Examination) : String :=
  if e.passes then "[OK] " ++ e.title ++ " evaluation works"
  else "[FAIL] " ++ e.title ++ " evaluation failed: " ++ e.outcome.summary

end Examination

def reportRule : String := String.ofList (List.replicate 50 '-')

def verdictLines (failed : Nat) : List String :=
  if failed = 0 then ["", "[OK] All health checks passed!"]
  else ["", "[WARN] Some health checks failed. Core functionality may be impaired."]

/-- The health check of a calculator whose components have the given version. -/
def healthCheck (version : String) : Response :=
  let components :=
    componentNames.map (fun name => "[OK] " ++ name ++ " " ++ version ++ " available")
  let failed := (Examination.all.filter (fun e => !e.passes)).length
  let passed := components.length + (Examination.all.length - failed)
  ⟨printLines
      (["Running matcalc health check...", reportRule] ++ components ++
        Examination.all.map Examination.line ++
        [reportRule,
          "Results: " ++ toString passed ++ " passed, " ++ toString failed ++ " failed"] ++
        verdictLines failed),
    Examination.all.flatMap (fun e => evaluationRecords e.text), failed = 0⟩

end LinearCalc
