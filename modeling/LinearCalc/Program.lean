import LinearCalc.CommandLine.Help
import LinearCalc.CommandLine.Settings
import LinearCalc.Dialogue
import LinearCalc.Health
import LinearCalc.Log.Journal

set_option autoImplicit false

/-! # The program

From a command line to what the program does. Of several tasks that a command line asks for, the
first one counts: telling the version, the health check, a plot, and an expression in this order.
Without any of them there is a dialogue. What an option was given nothing for is missing only when
it is needed. A plot may keep the program busy for ever.
-/

namespace LinearCalc

open CommandLine

/-- What the program has to do with. -/
structure Surroundings where
  /-- The version of the components. -/
  componentVersion : String
  /-- The file for drawings that are given no file. -/
  temporaryPath : String
  /-- Why images cannot be saved, if so. -/
  saving : Option Fault
  /-- The lines that can be read. -/
  lines : List String

inductive Task where
  | tellVersion
  | checkHealth
  | plot (r : PlotRequest)
  | evaluate (given : Given)
  | converse

/-- A viewport at the origin with the zoom that is asked for. Asking for zero is asking for
nothing. -/
def viewportFor (zoom : Option Float) : Viewport Float :=
  match zoom with
  | none => defaultViewport
  | some z => if z == 0 then defaultViewport else ⟨defaultViewport.centre, z⟩

namespace CommandLine.Given

def toText? : Given → Option String
  | text s => some s
  | nothing => none

/-- An expression that is given. Nothing is as good as an empty one. -/
def expression (g : Given) : String := g.toText?.getD ""

/-- What is given, as it is shown in the log. -/
def preview : Given → String
  | text s => LinearCalc.preview s previewLength
  | nothing => "[]"

end CommandLine.Given

namespace CommandLine.Settings

/-- The plots that are asked for, each of which needs its text. -/
def plotTexts? (s : Settings) : Except Breakdown (Labelled String) :=
  match s.plots.mapM Given.toText? with
  | some arguments => .ok (plotTexts arguments)
  | none => .error .plotText

def destination (s : Settings) (temporaryPath : String) : Destination :=
  match s.output with
  | some given => ⟨given.expression, false⟩
  | none => ⟨temporaryPath, true⟩

def nowhereFault : Fault := .broken "'list' object has no attribute 'write'"

/-- Why images cannot be saved, if so, when `saving` is why no file can be written. -/
def savingFault (s : Settings) (saving : Option Fault) : Option Fault :=
  if s.output = some .nothing then some nowhereFault else saving

def task (s : Settings) (temporaryPath : String) : Except Breakdown Task :=
  if s.version then .ok .tellVersion
  else if s.healthCheck then .ok .checkHealth
  else if !s.plots.isEmpty then
    s.plotTexts?.map (fun texts =>
      .plot
        { texts := texts
          view := viewportFor s.zoom
          destination := s.destination temporaryPath })
  else
    match s.eval with
    | some given => .ok (.evaluate given)
    | none => .ok .converse

/-- The drawing whose image is to be saved, if there is one. -/
def drawing? (s : Settings) : Option Drawing :=
  match s.task "" with
  | .ok (.plot r) =>
    match r.plot (usualPainter r.destination.path (s.savingFault none)) with
    | .painted drawing _ ⟨.saved, _⟩ => some drawing
    | _ => none
  | _ => none

/-- The plot that the program never comes to the end of, if it is asked for one. -/
def endlessPlot? (s : Settings) : Option PlotRequest :=
  match s.task "" with
  | .ok (.plot r) => if r.ends then none else some r
  | _ => none

def manner (s : Settings) : Manner := ⟨s.format, s.precision⟩

/-- The journal that the program writes, for which it needs a level. -/
def journal (s : Settings) : Except Breakdown Journal :=
  match s.logLevel with
  | some level => .ok (.ofThreshold level.number)
  | none => .error .level

def journalFile (s : Settings) : Option String := s.logFile.filter (· != "")

/-- The record of an expression that comes with the command line. -/
def textRecord (given : Given) : LogRecord := .of .debug "cli" ("Evaluating " ++ given.preview)

/-- The response to an expression: its tokens, its tree, or its value. -/
def respondTo (s : Settings) (given : Given) : Except Breakdown Response := do
  let text := given.expression
  let response ←
    if s.tokens then pure (Response.tokens text s.format)
    else if s.tree then pure (Response.tree text)
    else Response.evaluation text s.precision s.format s.latex
  return { response with records := textRecord given :: response.records }

/-- Does what the program is asked to do, which is to have an end. -/
def respond (s : Settings) (world : Surroundings) : Except Breakdown Response := do
  match ← s.task world.temporaryPath with
  | .tellVersion => return .print (printLines [programVersion])
  | .checkHealth => return LinearCalc.healthCheck world.componentVersion
  | .plot r =>
    let painter := usualPainter r.destination.path (s.savingFault world.saving)
    return .plot r painter s.format
  | .evaluate given => s.respondTo given
  | .converse => s.manner.dialogue world.lines

end CommandLine.Settings

/-- How a run of the program ends. -/
inductive Ending where
  /-- The command line is wrong. -/
  | misused (e : UsageError)
  /-- Help was asked for. -/
  | helped
  /-- The program needed something that is missing. -/
  | broken (b : Breakdown)
  /-- The program did what it was asked to do, and wrote its journal. -/
  | responded (file : Option String) (journal : Journal) (r : Response)
  /-- There is no end: the program is still painting after it has written these records. -/
  | endless (file : Option String) (journal : Journal) (records : List LogRecord)

namespace Ending

/-- The exit status of the program, if it comes to an end. -/
def status? : Ending → Option Nat
  | misused _ => some 2
  | helped => some 0
  | broken _ => some 1
  | responded _ _ r => some (if r.ok then 0 else 1)
  | endless .. => none

/-- The exit status of the program. One that has no end can only be stopped, which is a failure. -/
def status (e : Ending) : Nat := e.status?.getD 1

def output : Ending → String
  | helped => helpText
  | responded _ _ r => r.output
  | _ => ""

def logLines : Ending → List String
  | responded _ journal r => (journal.select r.records).map LogRecord.text
  | endless _ journal records => (journal.select records).map LogRecord.text
  | _ => []

def logFile : Ending → Option String
  | responded file _ _ => file
  | endless file _ _ => file
  | _ => none

end Ending

def runWith (s : Settings) (world : Surroundings) : Except Breakdown Ending := do
  -- the journal comes first, whatever the task is
  let journal ← s.journal
  match s.endlessPlot? with
  | some r => return .endless s.journalFile journal r.textRecords
  | none =>
    let response ← s.respond world
    return .responded s.journalFile journal response

def run (arguments : List String) (world : Surroundings) : Ending :=
  match Settings.ofArguments arguments with
  | .error .help => .helped
  | .error (.wrong e) => .misused e
  | .ok s =>
    match runWith s world with
    | .error b => .broken b
    | .ok ending => ending

end LinearCalc
