set_option autoImplicit false

/-! # Log records

What is written to a log: a message with its level and the name of the part of the calculator that
it comes from.
-/

namespace LinearCalc

/-- How important a message is. -/
inductive Level where
  | debug
  | info
  | warning
  | error
  | critical
deriving DecidableEq, Repr

namespace Level

/-- The number of a level; more important levels have larger numbers. -/
def number : Level → Nat
  | debug => 10
  | info => 20
  | warning => 30
  | error => 40
  | critical => 50

def name : Level → String
  | debug => "DEBUG"
  | info => "INFO"
  | warning => "WARNING"
  | error => "ERROR"
  | critical => "CRITICAL"

def all : List Level := [debug, info, warning, error, critical]

end Level

/-- A message in a log. -/
structure LogRecord where
  level : Level
  source : String
  message : String
deriving DecidableEq, Repr

namespace LogRecord

/-- The name of the log of one part of the calculator. -/
def sourceOf (part : String) : String := "matcalc." ++ part

def of (level : Level) (part message : String) : LogRecord := ⟨level, sourceOf part, message⟩

def text (r : LogRecord) : String := "[" ++ r.level.name ++ "] " ++ r.source ++ ": " ++ r.message

end LogRecord

end LinearCalc
