import LinearCalc.Log.Record
import LinearCalc.Text.Characters

set_option autoImplicit false

/-! # Journals

Which records of a log are written. A journal is set up for a level given by name, in letters of
either case; one that is unknown counts as `WARNING`. Two names are reserved for how messages are
written, and no journal can be set up for them. Before a journal is set up it writes only bare
messages, and only important ones.
-/

namespace LinearCalc

/-- The least level of the records that a journal writes, and how many places it writes to. -/
structure Journal where
  threshold : Nat
  handlers : Nat
deriving DecidableEq, Repr

/-- A character in upper case, as far as the names of levels are concerned. -/
def upperCase (c : Char) : Char :=
  if c = 'ı' then 'I' else if c = 'ſ' then 'S' else c.toUpper

/-- The names of the levels, some of which have two. -/
def levelNumbers : List (String × Nat) :=
  [("DEBUG", 10), ("INFO", 20), ("WARNING", 30), ("WARN", 30), ("ERROR", 40), ("CRITICAL", 50),
    ("FATAL", 50), ("NOTSET", 0)]

/-- The level for which a journal is set up if no other is given. -/
def defaultLevel : String := "WARNING"

def capitals (name : String) : String := String.ofList (name.toList.map upperCase)

def levelNumber (name : String) : Nat :=
  (levelNumbers.lookup (capitals name)).getD Level.warning.number

/-- A name that stands for something else than a level. -/
inductive ReservedName where
  /-- The form of a message. -/
  | messageForm
  /-- The table of the ways in which the form of a message can be given. -/
  | formTable
deriving DecidableEq, Repr

namespace ReservedName

def table : List (String × ReservedName) :=
  [("BASIC_FORMAT", messageForm), ("_STYLES", formTable)]

/-- What is said when a journal is set up for a reserved name: what stands there instead of a
level. -/
def message : ReservedName → String
  | messageForm => "Unknown level: '%(levelname)s:%(name)s:%(message)s'"
  | formTable =>
    "Level not an integer or a valid string: \x7b'%': (<class 'logging.PercentStyle'>, " ++
      "'%(levelname)s:%(name)s:%(message)s'), '\x7b': (<class 'logging.StrFormatStyle'>, " ++
      "'\x7blevelname\x7d:\x7bname\x7d:\x7bmessage\x7d'), " ++
      "'$': (<class 'logging.StringTemplateStyle'>, " ++
      "'$\x7blevelname\x7d:$\x7bname\x7d:$\x7bmessage\x7d')\x7d"

end ReservedName

namespace Journal

/-- The journal before it is set up. -/
def initial : Journal := ⟨Level.warning.number, 0⟩

def ofThreshold (threshold : Nat) : Journal := ⟨threshold, 1⟩

def setup (level : Option String) : Except ReservedName Journal :=
  let name := level.getD defaultLevel
  match ReservedName.table.lookup (capitals name) with
  | some reserved => .error reserved
  | none => .ok (.ofThreshold (levelNumber name))

/-- The least level that is written; a journal without a level of its own starts at warnings. -/
def effective (j : Journal) : Nat := if j.threshold = 0 then Level.warning.number else j.threshold

def writes (j : Journal) (level : Level) : Bool :=
  decide (j.effective ≤ level.number) &&
    (j.handlers != 0 || decide (Level.warning.number ≤ level.number))

def recordText (j : Journal) (r : LogRecord) : String :=
  if j.handlers = 0 then r.message else r.text

def lines (j : Journal) (r : LogRecord) : List String :=
  if j.writes r.level then textLines (j.recordText r) else []

/-- The records among the given ones that the journal writes. -/
def select (j : Journal) (records : List LogRecord) : List LogRecord :=
  records.filter (fun r => j.writes r.level)

end Journal

def failedMessage : String := "failed"

/-- What an error says, after its kind. -/
def errorText (text : String) : String :=
  if text = "" then "ValueError" else "ValueError: " ++ text

/-- The first and the last line that an error adds to a journal, when `text` is what it says. -/
def Journal.errorLines (j : Journal) (source text : String) : List String :=
  let r : LogRecord := ⟨.error, source, failedMessage⟩
  if j.writes r.level then [j.recordText r] ++ (textLines (errorText text)).getLast?.toList else []

end LinearCalc
