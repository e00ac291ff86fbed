import LinearCalc.Log.Record
import LinearCalc.Text.Quoted

set_option autoImplicit false

/-! # Options of the command line

The options with their names. An option either takes a value or is a flag, and the values of some
are restricted to a few words. All that can be wrong with a command line is listed as well.
-/

namespace LinearCalc.CommandLine

inductive Opt where
  | help
  | eval
  | format
  | precision
  | latex
  | tokens
  | tree
  | plot
  | output
  | zoom
  | version
  | logLevel
  | logFile
  | healthCheck
deriving DecidableEq, Repr

namespace Opt

def all : List Opt :=
  [help, eval, format, precision, latex, tokens, tree, plot, output, zoom, version, logLevel,
    logFile, healthCheck]

/-- The names of an option, the short one first. -/
def names : Opt → List String
  | help => ["-h", "--help"]
  | eval => ["-e", "--eval"]
  | format => ["--format"]
  | precision => ["-p", "--precision"]
  | latex => ["--latex"]
  | tokens => ["--tokens"]
  | tree => ["--tree"]
  | plot => ["--plot"]
  | output => ["--output"]
  | zoom => ["--zoom"]
  | version => ["-v", "--version"]
  | logLevel => ["--log-level"]
  | logFile => ["--log-file"]
  | healthCheck => ["--health-check"]

def label (o : Opt) : String := "/".intercalate o.names

def ofName? (name : String) : Option Opt := all.find? (fun o => o.names.contains name)

def takesValue : Opt → Bool
  | eval | format | precision | plot | output | zoom | logLevel | logFile => true
  | help | latex | tokens | tree | version | healthCheck => false

end Opt

/-- The word after which there are no options. -/
def endOfOptions : String := "--"

def logLevels : List Level := [.debug, .info, .warning, .error]

/-! ## Errors of usage -/

inductive UsageError where
  /-- A word abbreviates the names of several options. -/
  | ambiguous (word : String) (names : List String)
  /-- An option that takes a value has none. -/
  | missingValue (o : Opt)
  /-- A flag has a value. -/
  | unwantedValue (o : Opt) (value : String)
  /-- The value of an option is no integer. -/
  | notInteger (o : Opt) (value : String)
  /-- The value of an option is no number. -/
  | notNumber (o : Opt) (value : String)
  /-- The value of an option is none of those that it may have. -/
  | notAmong (o : Opt) (value : String) (choices : List String)
  /-- There are words that belong to no option. -/
  | unrecognized (words : List String)
deriving DecidableEq, Repr

namespace UsageError

/-- The text of an error that has to do with one option. -/
def about (o : Opt) (text : String) : String := "argument " ++ o.label ++ ": " ++ text

def message : UsageError → String
  | ambiguous word names =>
    "ambiguous option: " ++ word ++ " could match " ++ ", ".intercalate names
  | missingValue o => about o "expected one argument"
  | unwantedValue o value => about o ("ignored explicit argument " ++ quoted value)
  | notInteger o value => about o ("invalid int value: " ++ quoted value)
  | notNumber o value => about o ("invalid float value: " ++ quoted value)
  | notAmong o value choices =>
    about o ("invalid choice: " ++ quoted value ++ " (choose from " ++
      ", ".intercalate (choices.map quoted) ++ ")")
  | unrecognized words => "unrecognized arguments: " ++ " ".intercalate words

end UsageError

end LinearCalc.CommandLine
