import LinearCalc.Text.Quoted

set_option autoImplicit false

/-! # Complaints about formulas

What is said about a formula that cannot be read: the formula with a mark below the place where
reading ended, how bad it is, what was expected, and what is there instead.
-/

namespace LinearCalc.Legend

/-- How bad it is that something expected is not there. -/
inductive Severity where
  /-- Something else may be there instead. -/
  | absent
  /-- What has been begun cannot be ended in another way. -/
  | broken
  /-- What is there is wrong wherever it stands. -/
  | wrong
deriving DecidableEq, Repr

def Severity.name : Severity → String
  | absent => "ParseException"
  | broken => "ParseSyntaxException"
  | wrong => "ParseFatalException"

structure Complaint where
  severity : Severity
  message : String
  /-- The text; it is empty if the place is not known. -/
  text : List Char
  /-- How many characters of the text have been read. -/
  place : Nat
deriving DecidableEq, Repr

/-- The first and the last of the letters and digits that make up words, in runs. -/
def wordRanges : List (Nat × Nat) :=
  [(0x30, 0x39), (0x41, 0x5A), (0x61, 0x7A), (0xAA, 0xAA), (0xB2, 0xB3), (0xB5, 0xB5),
    (0xB9, 0xBA), (0xC0, 0xD6), (0xD8, 0xF6), (0xF8, 0x24F), (0x370, 0x374), (0x376, 0x377),
    (0x37A, 0x37D), (0x37F, 0x37F), (0x386, 0x386), (0x388, 0x38A), (0x38C, 0x38C),
    (0x38E, 0x3A1), (0x3A3, 0x3E1), (0x3F0, 0x3F5), (0x3F7, 0x481), (0x48A, 0x52F)]

def isWordChar (c : Char) : Bool :=
  wordRanges.any (fun range => decide (range.1 ≤ c.toNat) && decide (c.toNat ≤ range.2))

def maxWordLength : Nat := 16

/-- A backslash that was doubled by quoting stands for itself again. -/
def undouble : List Char → List Char
  | '\\' :: '\\' :: more => '\\' :: undouble more
  | c :: more => c :: undouble more
  | [] => []

namespace Complaint

/-- What is there instead: the next word, or a single character. -/
def found (c : Complaint) : String :=
  match c.text, c.text.drop c.place with
  | [], _ => ""
  | _, [] => ", found end of text"
  | _, next :: more =>
    let word := (next :: more).takeWhile isWordChar
    let shown := if word.isEmpty then [next] else word.take maxWordLength
    ", found " ++ String.ofList (undouble (quoteChars shown))

def report (c : Complaint) : String :=
  "\n" ++ String.ofList c.text ++ "\n" ++ String.ofList (List.replicate c.place ' ') ++ "^\n" ++
    c.severity.name ++ ": " ++ c.message ++ c.found ++ "  (at char " ++ toString c.place ++
    "), (line:1, col:" ++ toString (c.place + 1) ++ ")"

end Complaint

end LinearCalc.Legend
