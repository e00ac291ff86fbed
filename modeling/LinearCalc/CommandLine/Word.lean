import LinearCalc.CommandLine.Opt
import LinearCalc.Text.Characters

set_option autoImplicit false

/-! # Words of the command line

What each word of a command line is by itself: a value, the name of an option, perhaps with
something attached to it, or something that looks like an option and is none. Something is attached
by `=` to any name, and without it to a short one. Long names may be abbreviated as long as they can
be told apart. Negative numbers are values, and so are words with a space in them unless they begin
with the name of an option; after the word `--` everything is a value.
-/

namespace LinearCalc.CommandLine

inductive NameKind where
  | short
  | long
deriving DecidableEq, Repr

/-- A word of the command line. -/
inductive Word where
  /-- The name of an option, and what is attached to it in the same word. -/
  | option (o : Opt) (kind : NameKind) (attached : Option (List Char))
  /-- A word that is not the name of an option but cannot be a value either. -/
  | stray (text : String)
  /-- Anything else. -/
  | value (text : String)
deriving DecidableEq, Repr

def isAnyDigit (c : Char) : Bool := (decimalDigit? c).isSome

/-- At least one digit and nothing else. A line break at the end does not count. -/
def isDigits (chars : List Char) : Bool :=
  match chars.dropWhile isAnyDigit with
  | [] => !chars.isEmpty
  | ['\n'] => chars.length != 1
  | _ => false

/-- A minus and digits, perhaps with a point before the last of them. -/
def isNegativeNumber : List Char → Bool
  | '-' :: chars =>
    isDigits chars ||
      (match chars.dropWhile isAnyDigit with
        | '.' :: places => isDigits places
        | _ => false)
  | _ => false

/-- The part of a word before the first `=`. -/
def namePart (word : List Char) : List Char := word.takeWhile (· != '=')

/-- The part of a word after the first `=`, if there is one. -/
def attachedPart (word : List Char) : Option (List Char) :=
  match word.dropWhile (· != '=') with
  | [] => none
  | _ :: attached => some attached

/-- The names that begin with the given one, and their options. -/
def completions (name : List Char) : List (String × Opt) :=
  Opt.all.flatMap (fun o =>
    (o.names.filter (fun other => name.isPrefixOf other.toList)).map (fun other => (other, o)))

/-- A word that begins with a minus and is not the name of an option. -/
def plainWord (word : List Char) : Word :=
  let text := String.ofList word
  if isNegativeNumber word || word.contains ' ' then .value text else .stray text

def readLongWord (word : List Char) : Except UsageError Word :=
  -- a whole name comes before names that it abbreviates
  match Opt.ofName? (String.ofList (namePart word)) with
  | some o => .ok (.option o .long (attachedPart word))
  | none =>
    match completions (namePart word) with
    | [] => .ok (plainWord word)
    | [(_, o)] => .ok (.option o .long (attachedPart word))
    | several => .error (.ambiguous (String.ofList word) (several.map Prod.fst))

/-- What a word is that begins with a single minus. -/
def readShortWord (word : List Char) : Word :=
  match Opt.ofName? (String.ofList (namePart word)) with
  | some o => .option o .short (attachedPart word)
  | none =>
    -- a short name may be followed by anything
    match Opt.ofName? (String.ofList (word.take 2)) with
    | some o => .option o .short (some (word.drop 2))
    | none => plainWord word

/-- What a word is, unless it comes after `--`. -/
def readWord (text : String) : Except UsageError Word :=
  match text.toList with
  | '-' :: '-' :: more => readLongWord ('-' :: '-' :: more)
  | '-' :: c :: more => .ok (readShortWord ('-' :: c :: more))
  | _ => .ok (.value text)

/-- What the words of a command line are. Everything after the mark is a value. -/
def readWords : List String → Except UsageError (List Word)
  | [] => .ok []
  | text :: more =>
    if text = endOfOptions then .ok (.stray text :: more.map .value)
    else do
      let word ← readWord text
      let words ← readWords more
      return word :: words

end LinearCalc.CommandLine
