import LinearCalc.CommandLine.Use
import LinearCalc.Labelled
import LinearCalc.Number.Numeral
import LinearCalc.Output.Display
import LinearCalc.Precision

set_option autoImplicit false

/-! # Settings

What the program is asked to do. The steps of a command line are followed one after the other; the
first that is wrong or asks for help ends it, and words that belong to no option are an error only
when everything else is right. An option given with nothing in it is not checked any further.

What is to be plotted is given as `name=expression`. An argument without a name is named for its
place: the first one `v1`, the second one `v2`, and so on.
-/

namespace LinearCalc.CommandLine

/-- What the program is asked to do. -/
structure Settings where
  eval : Option Given := none
  format : Format := .human
  precision : Precision := .usual
  latex : Bool := false
  tokens : Bool := false
  tree : Bool := false
  plots : List Given := []
  output : Option Given := none
  zoom : Option Float := none
  version : Bool := false
  /-- The level of the log; there is none if nothing was given for it. -/
  logLevel : Option Level := some .warning
  logFile : Option String := none
  healthCheck : Bool := false

/-- Why a command line is not followed to its end. -/
inductive Stop where
  | help
  | wrong (e : UsageError)
deriving DecidableEq, Repr

/-- The one among the choices that has the given name. -/
def choose {α : Type} (o : Opt) (name : α → String) (choices : List α) (value : String) :
    Except Stop α :=
  match choices.find? (fun a => name a == value) with
  | some a => .ok a
  | none => .error (.wrong (.notAmong o value (choices.map name)))

namespace Settings

def raise (s : Settings) : Opt → Except Stop Settings
  | .help => .error .help
  | .latex => .ok { s with latex := true }
  | .tokens => .ok { s with tokens := true }
  | .tree => .ok { s with tree := true }
  | .version => .ok { s with version := true }
  | .healthCheck => .ok { s with healthCheck := true }
  | _ => .ok s

/-- Sets an option to a text. All texts of `--plot` count, and the last one of any other. -/
def setText (s : Settings) (o : Opt) (text : String) : Except Stop Settings :=
  match o with
  | .eval => .ok { s with eval := some (.text text) }
  | .format => (choose o Format.name Format.all text).map (fun f => { s with format := f })
  | .precision =>
    match readInteger? text with
    | some n => .ok { s with precision := .digits n }
    | none => .error (.wrong (.notInteger o text))
  | .plot => .ok { s with plots := s.plots ++ [.text text] }
  | .output => .ok { s with output := some (.text text) }
  | .zoom =>
    match readDecimal? text with
    | some x => .ok { s with zoom := some x }
    | none => .error (.wrong (.notNumber o text))
  | .logLevel =>
    (choose o Level.name logLevels text).map (fun l => { s with logLevel := some l })
  | .logFile => .ok { s with logFile := some text }
  | _ => .ok s

def setNothing (s : Settings) : Opt → Settings
  | .eval => { s with eval := some .nothing }
  | .format => { s with format := .human }
  | .precision => { s with precision := .unknown }
  | .plot => { s with plots := s.plots ++ [.nothing] }
  | .output => { s with output := some .nothing }
  | .zoom => { s with zoom := none }
  | .logLevel => { s with logLevel := none }
  | .logFile => { s with logFile := none }
  | _ => s

def set (s : Settings) (o : Opt) : Given → Except Stop Settings
  | .text text => s.setText o text
  | .nothing => .ok (s.setNothing o)

/-- Follows the steps of a command line; `strays` are the words so far that belong to no
option. -/
def follow (s : Settings) (strays : List String) : List Use → Except Stop Settings
  | [] => if strays.isEmpty then .ok s else .error (.wrong (.unrecognized strays))
  | .flag o :: uses => (s.raise o).bind (fun s => s.follow strays uses)
  | .setting o given :: uses => (s.set o given).bind (fun s => s.follow strays uses)
  | .stray text :: uses => s.follow (strays ++ [text]) uses
  | .wrong e :: _ => .error (.wrong e)

/-- The settings that a command line asks for. -/
def ofArguments (arguments : List String) : Except Stop Settings :=
  match readWords arguments with
  | .error e => .error (.wrong e)
  | .ok words => follow {} [] (readUses words)

end Settings

/-! ## Arguments of plots -/

/-- The name that comes with an argument, and its expression. -/
def splitArgument (argument : String) : Option String × String :=
  let chars := argument.toList
  match chars.dropWhile (· != '=') with
  | [] => (none, trimBlanks argument)
  | _ :: text =>
    (some (trimBlanks (String.ofList (chars.takeWhile (· != '=')))),
      trimBlanks (String.ofList text))

/-- The name of the argument in the given place, the first one having place zero. -/
def placeName (place : Nat) : String := "v" ++ toString (place + 1)

/-- The names of arguments and their expressions, when the first of them has the given place. -/
def nameArguments (place : Nat) : List String → List (String × String)
  | [] => []
  | argument :: more =>
    let (name, text) := splitArgument argument
    (name.getD (placeName place), text) :: nameArguments (place + 1) more

/-- The texts to be plotted. An argument with a name that was used before replaces the text under
that name. -/
def plotTexts (arguments : List String) : Labelled String :=
  Labelled.ofList (nameArguments 0 arguments)

end LinearCalc.CommandLine
