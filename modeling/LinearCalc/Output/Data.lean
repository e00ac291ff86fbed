import LinearCalc.Number.Shortest

set_option autoImplicit false

/-! # Structured output

Results as nested lists and records, and how they are written as JSON: two blanks of indentation
to a level, one element to a line, and all characters as they are except quotes, backslashes and
control characters.
-/

namespace LinearCalc

/-- A structured result. The fields of a record keep their order. -/
inductive Data where
  | null
  | truth (b : Bool)
  | integer (n : Int)
  | decimal (x : Float)
  | text (s : String)
  | list (items : List Data)
  | record (fields : List (String × Data))

namespace Data

def texts (items : List String) : Data := list (items.map text)

def offset (n : Nat) : Data := integer n

/-- A character as it stands in a JSON string. -/
def escapeJson (c : Char) : List Char :=
  if c = '"' then ['\\', '"']
  else if c = '\\' then ['\\', '\\']
  else if c = '\n' then ['\\', 'n']
  else if c = '\r' then ['\\', 'r']
  else if c = '\t' then ['\\', 't']
  else if c = '\x08' then ['\\', 'b']
  else if c = '\x0c' then ['\\', 'f']
  else if c.toNat < 0x20 then
    let digits := Nat.toDigits 16 c.toNat
    '\\' :: 'u' :: (List.replicate (4 - digits.length) '0' ++ digits)
  else [c]

def jsonString (s : String) : String :=
  String.ofList ('"' :: (s.toList.flatMap escapeJson ++ ['"']))

/-- A line break and the indentation of a level. -/
def newline (level : Nat) : String :=
  String.ofList ('\n' :: List.replicate (2 * level) ' ')

mutual

/-- Writes data as JSON, at a level of indentation. -/
def json (level : Nat) : Data → String
  | null => "null"
  | truth b => if b then "true" else "false"
  | integer n => toString n
  | decimal x => shortestText x
  | text s => jsonString s
  | list [] => "[]"
  | list (item :: items) =>
    "[" ++ newline (level + 1) ++ json (level + 1) item ++ jsonItems (level + 1) items ++
      newline level ++ "]"
  | record [] => "\x7b\x7d"
  | record ((name, item) :: fields) =>
    "\x7b" ++ newline (level + 1) ++ jsonString name ++ ": " ++ json (level + 1) item ++
      jsonFields (level + 1) fields ++ newline level ++ "\x7d"

/-- Writes the items of a list after the first one. -/
def jsonItems (level : Nat) : List Data → String
  | [] => ""
  | item :: items => "," ++ newline level ++ json level item ++ jsonItems level items

/-- Writes the fields of a record after the first one. -/
def jsonFields (level : Nat) : List (String × Data) → String
  | [] => ""
  | (name, item) :: fields =>
    "," ++ newline level ++ jsonString name ++ ": " ++ json level item ++ jsonFields level fields

end

def toJson (d : Data) : String := json 0 d

end Data

end LinearCalc
