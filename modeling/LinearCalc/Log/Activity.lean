import LinearCalc.Evaluate
import LinearCalc.Log.Record
import LinearCalc.Plot
import LinearCalc.Trace

set_option autoImplicit false

/-! # What activities write to the log

The records that scanning, parsing, evaluating and plotting add to the log, in order. Most of them
are there for debugging; rejected texts and finished plots are informations, entries that a plot
skips are warnings, and faults that nobody expects are errors.
-/

namespace LinearCalc

/-! ## Reading texts -/

def scanRecord (text : String) : LogRecord :=
  .of .debug "lexer" ("Lexed " ++ toString text.length ++ " characters into " ++
    toString (tokenize text).length ++ " tokens")

/-- The record of parsing a text, if there is something wrong with it. -/
def diagnosticRecords (text : String) : List LogRecord :=
  let diagnostics := (parseText text).2
  if diagnostics.isEmpty then []
  else
    [.of .debug "parser" ("Parsed " ++ toString (tokenize text).length ++
      " tokens with diagnostics: " ++ quotedList (diagnostics.map Diagnostic.message))]

/-- The records of parsing a text within the limits. A text that is too long is not even
scanned. -/
def parseRecords (text : String) : List LogRecord :=
  if text.length > maxLength then [] else scanRecord text :: diagnosticRecords text

/-! ## Evaluating -/

def Remark.record : Remark → LogRecord
  | illFormed span =>
    .of .debug "simplifier" ("Ragged or empty matrix at " ++ toString span.start ++ ".." ++
      toString span.stop)
  | poisoned sign position =>
    .of .debug "simplifier" ("Operator " ++ quoted sign ++ " at " ++ toString position ++
      " poisoned the result")

/-- The records of evaluating an expression and showing its value, once as text and once in
LaTeX. -/
def Expr.records (e : Expr Float) : List LogRecord :=
  (e.trace.now ++ e.showingRemarks ++ e.showingRemarks).map Remark.record

def Rejection.record (r : Rejection) : LogRecord :=
  .of .info "api" ("Rejected input (" ++ r.code ++ "): " ++ r.message)

def invalidRecord (text : String) : LogRecord :=
  .of .debug "api" ("Evaluation of " ++ preview text previewLength ++ " produced NaN")

def evaluationRecords (text : String) : List LogRecord :=
  parseRecords text ++
    match parseWithin text with
    -- a tree that is too deep has been scanned and parsed by then
    | .error rejection => [rejection.record]
    | .ok (tree, _) =>
      tree.records ++ (if tree.simplify.isInvalid then [invalidRecord text] else [])

/-! ## Plotting -/

/-- The records of parsing and evaluating the texts of a plot, up to one that is rejected. -/
def plotTextRecords : Labelled String → List LogRecord
  | [] => []
  | (_, text) :: more =>
    parseRecords text ++
      match parseWithin text with
      | .error _ => []
      | .ok (tree, _) => tree.trace.now.map Remark.record ++ plotTextRecords more

def skipRecord (label : String) : LogRecord :=
  .of .warning "plotting" ("Skipping " ++ quoted label ++ ": not a 1xn or 2xn numeric matrix")

/-- The records of reading off the vectors of an entry. -/
def vectorRecords (label : String) (e : Expr Float) : List LogRecord :=
  e.readingRemarks.map Remark.record ++ (if e.vectors?.isNone then [skipRecord label] else [])

/-- The records of reading off the vectors of all entries. -/
def entryRecords (texts : Labelled String) : List LogRecord :=
  match parseAll texts with
  | .error _ => []
  | .ok entries => entries.flatMap (fun entry => vectorRecords entry.1 entry.2)

def paintRecords (drawing : Drawing) (destination : Destination) : PaintEnd → List LogRecord
  | .saved =>
    [.of .info "plotting" ("Plotted " ++ toString drawing.arrows.length ++ " vector set(s) to " ++
      destination.path)]
  | .failed (.broken message) =>
    [.of .error "plotting" ("Unexpected plotting error: " ++ message)]
  | _ => []

/-- The records of a plot before anything is painted. -/
def PlotRequest.textRecords (r : PlotRequest) : List LogRecord :=
  plotTextRecords r.texts ++ entryRecords r.texts

def PlotRequest.records (r : PlotRequest) (painter : Painter) : List LogRecord :=
  r.textRecords ++
    match r.plot painter with
    | .painted drawing _ result => paintRecords drawing r.destination result.ending
    | _ => []

end LinearCalc
