import LinearCalc.Plot.Png
import LinearCalc.Program

set_option autoImplicit false

/-! # Running the program

Reads the command line and the lines of a dialogue, prints what the program responds, and writes
logs and images to their files.
-/

namespace LinearCalc

open CommandLine

/-- Saves an image; the fault says why it cannot be saved. -/
def saveImage (path : String) (image : ByteArray) : IO (Option Fault) := do
  try
    IO.FS.writeBinFile path image
    return none
  catch e =>
    return some (.refused (toString e))

/-- The log that is being written: its journal, and the file for it if there is one. -/
structure Log where
  journal : Journal
  file : Option String

def Log.write (log : Log) (records : List LogRecord) : IO Unit := do
  let text := printLines ((log.journal.select records).map LogRecord.text)
  (← IO.getStderr).putStr text
  match log.file with
  | none => return
  | some path =>
    let file ← IO.FS.Handle.mk path .append
    file.putStr text

/-- Prints a response and writes its records to the log. -/
def Log.deliver (log : Log) (r : Response) : IO Unit := do
  log.write r.records
  let out ← IO.getStdout
  out.putStr r.output
  out.flush

def breakDown {α : Type} (b : Breakdown) : IO α := throw (IO.userError b.message)

/-- Answers one line after the other. -/
partial def converseWith (s : Settings) (log : Log) : IO Unit := do
  log.deliver (.print prompt)
  let line ← (← IO.getStdin).getLine
  if line.isEmpty then
    log.deliver (.print ("\n" ++ farewell))
  else
    let request := Request.ofLine line
    match s.manner.answer request with
    | .error b => breakDown b
    | .ok answer =>
      log.deliver answer
      if request ≠ .leave then converseWith s log

/-- The file for a drawing that is given no file. -/
def temporaryPath : IO String := do
  let (_, path) ← IO.FS.createTempFile
  return path.toString

/-- Makes the response, saving the image of a plot if there is one. -/
def respondAt (s : Settings) : IO (Except Breakdown Response) := do
  match s.drawing?.bind Drawing.png? with
  | none => return s.respond ⟨programVersion, "", none, []⟩
  | some image =>
    let path ← match s.output.bind Given.toText? with
      | some path => pure path
      | none => temporaryPath
    let saving ← saveImage path image
    if saving.isSome && s.output.isNone then IO.FS.removeFile path
    return s.respond ⟨programVersion, path, saving, []⟩

/-- Does what the settings ask for; the result is the exit status. -/
def runSettings (s : Settings) : IO Nat := do
  match s.journal with
  | .error b => breakDown b
  | .ok journal =>
    let log : Log := ⟨journal, s.journalFile⟩
    log.write []
    match s.task "" with
    | .ok .converse =>
      log.deliver (.print greeting)
      converseWith s log
      return 0
    | _ =>
      match ← respondAt s with
      | .error b => breakDown b
      | .ok response =>
        log.deliver response
        return (Ending.responded log.file journal response).status

def program (arguments : List String) : IO UInt32 := do
  match Settings.ofArguments arguments with
  | .error .help =>
    IO.print helpText
    return 0
  | .error (.wrong e) =>
    IO.eprint e.text
    return 2
  | .ok s => return (← runSettings s).toUInt32

end LinearCalc

def main (arguments : List String) : IO UInt32 := LinearCalc.program arguments
