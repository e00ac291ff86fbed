import LinearCalc.Legend.Complaint
import LinearCalc.Legend.Names

set_option autoImplicit false

/-! # Formulas

Whether a formula of a legend can be read. A formula is a row of tokens: spaces, fonts, symbols and
groups with their scripts and primes, and delimiters that belong together. Some constructions have
to be complete once they have been begun. A reader takes what it reads from the front of a text;
what it leaves tells the place. The readers that call each other are given so many steps, and a
formula is given more of them than its characters need.
-/

namespace LinearCalc.Legend

/-! ## Readers -/

/-- Why a reader stops. -/
inductive Halt where
  /-- What was expected is not there; something else may be. -/
  | absent (rest : List Char) (message : String)
  /-- Nothing else can be there. The place may be unknown. -/
  | final (severity : Severity) (rest : Option (List Char)) (message : String)

/-- What a reader leaves, or why it stops. -/
abbrev Reading := Except Halt (List Char)

def expected (name : String) : String := "Expected " ++ name

namespace Halt

/-- Stopping within what has been begun and has to be completed. -/
def committed : Halt → Halt
  | absent rest message => final .broken (some rest) message
  | final _ rest message => final .broken rest message

/-- Stopping within something that has a name, which is all that is told then. What is broken
keeps its own message. -/
def within (name : String) : Halt → Halt
  | absent rest _ => absent rest (expected name)
  | final .broken rest message => final .broken rest message
  | final severity rest _ => final severity rest (expected name)

end Halt

namespace Reading

/-- What cannot be undone any more. -/
def committed (r : Reading) : Reading := r.mapError Halt.committed

def within (name : String) (r : Reading) : Reading := r.mapError (Halt.within name)

end Reading

abbrev Reader := List Char → Reading

/-- Reads with the first of some readers for which there is something. -/
def readFirst : List Reader → Reader
  | [], s => .error (.absent s "")
  | [reader], s => reader s
  | reader :: readers, s =>
    match reader s with
    | .error (.absent _ _) => readFirst readers s
    | other => other

def readAll : List Reader → Reader
  | [], s => .ok s
  | reader :: readers, s => (reader s).bind (readAll readers)

/-- Reads with a reader if there is something for it. -/
def readOptional (reader : Reader) : Reader := readFirst [reader, .ok]

/-! ## Characters and names -/

def isBlank (c : Char) : Bool := c = ' ' || c = '\t' || c = '\n' || c = '\r'

def skipBlanks (s : List Char) : List Char := s.dropWhile isBlank

def isLetter (c : Char) : Bool := c.isAlpha

/-- Reads the given characters, whatever comes after them. -/
def readExactly (chars : List Char) : Reader := fun s =>
  let s := skipBlanks s
  if chars.isPrefixOf s then .ok (s.drop chars.length)
  else .error (.absent s (expected (quoted (String.ofList chars))))

def readAny (texts : List String) : Reader := fun s =>
  let s := skipBlanks s
  match texts.find? (fun text => text.toList.isPrefixOf s) with
  | some text => .ok (s.drop text.length)
  | none => .error (.absent s "")

/-- Reads a backslash and one of some names, or one of some single characters. -/
def readName (names : List String) (marks : List Char) : Reader := fun s =>
  let s := skipBlanks s
  match s with
  | '\\' :: c :: more =>
    let letters := (c :: more).takeWhile isLetter
    if names.contains (String.ofList letters) then .ok ((c :: more).drop letters.length)
    else if marks.contains c then .ok more
    else .error (.absent s "")
  | _ => .error (.absent s "")

def isPlainSymbol (c : Char) : Bool :=
  c.isAlphanum || plainSymbols.contains c || (decide (0x80 ≤ c.toNat) && decide (c.toNat < 0x20000))

/-- Reads a symbol. A blank is one, too. -/
def readSymbol : Reader := fun s =>
  match s with
  | '\\' :: c :: more =>
    if c = nameMark && !more.head?.any isLetter then .ok more
    else readName symbolNames escapedSymbols s
  | c :: more => if isPlainSymbol c then .ok more else .error (.absent s "")
  | [] => .error (.absent s "")

/-- Reads a number: digits with at most one point, and perhaps a sign. -/
def readNumber : Reader := fun s =>
  let s := skipBlanks s
  let unsigned := if s.head?.any (fun c => c = '-' || c = '+') then s.drop 1 else s
  let whole := unsigned.takeWhile Char.isDigit
  let (places, rest) :=
    match unsigned.drop whole.length with
    | '.' :: more => (more.takeWhile Char.isDigit, more.dropWhile Char.isDigit)
    | rest => ([], rest)
  if (whole ++ places).isEmpty then .error (.absent s "") else .ok rest

/-- Reads a text up to the closing brace; a backslash protects the next character. -/
def readProtected : Reader
  | '\x7d' :: more => .ok more
  | '\\' :: _ :: more => readProtected more
  | _ :: more => readProtected more
  | [] => .error (.absent [] "")

def readBraces (content : Reader) : Reader :=
  readAll [readExactly ['\x7b'], content, readExactly ['\x7d']]

/-! ## Constructions -/

/-- Reads a construction that is begun by its name and has to be completed as the usage says. -/
def readCommand (name usage : String) (arguments : Reader) : Reader := fun s =>
  (readExactly ('\\' :: name.toList) s).bind (fun s =>
    match arguments s with
    | .error (.absent _ _) =>
      .error (.final .broken (some (skipBlanks s)) (expected ("\\" ++ name ++ usage)))
    | other => other.committed)

/-- Reads a brace that opens a group, perhaps with a font before it. -/
def readOpening : Reader :=
  readAll [readOptional (readAll [readExactly "\\math".toList, readAny fontNames]),
    readExactly ['\x7b']]

def readClosing : Reader := fun s => (readExactly ['\x7d'] s).within "end_group"

def readDelimiter : Reader := fun s =>
  match readAny delimiterNames s with
  | .error _ => .error (.final .broken (some (skipBlanks s)) "Expected a delimiter")
  | other => other

def readUnknown : Reader := fun s =>
  let s := skipBlanks s
  match s with
  | '\\' :: more =>
    match more.takeWhile isLetter with
    | [] => .error (.absent s "")
    | letters =>
      .error (.final .wrong (some s) ("Unknown symbol: " ++ String.ofList ('\\' :: letters)))
  | _ => .error (.absent s "")

/-- Reads a space or a font. -/
def readSpacing : Reader :=
  readFirst [readAny spaceNames, readCommand "hspace" "\x7bspace\x7d" (readBraces readNumber),
    readName fontNames []]

def dropPrimes (s : List Char) : List Char := (skipBlanks s).dropWhile (· == '\'')

/-- Drops line breaks, each of two backslashes. -/
def dropLineBreaks (s : List Char) : List Char :=
  match h : skipBlanks s with
  | '\\' :: '\\' :: more =>
    have : more.length < s.length := by
      have := (List.dropWhile_suffix (l := s) isBlank).length_le
      have := congrArg List.length h
      simp only [skipBlanks, List.length_cons] at this
      omega
    dropLineBreaks more
  | _ => s
termination_by s.length

/-- What is told if scripts, which are known by their marks, come after those that have been
seen, and one of them is the second of its kind. -/
def doubled? (seen : List Char) : List Char → Option String
  | [] => none
  | mark :: marks =>
    if seen.contains mark then
      some (if mark = '_' then "Double subscript" else "Double superscript")
    else doubled? (mark :: seen) marks

/-- What is told when nothing is there that can be a script. -/
def scriptMessage : String :=
  expected ("\x7b" ++ " | ".intercalate
    ["accent", "symbol", "function", "operatorname", "group", "frac", "dfrac", "binom", "genfrac",
      "overset", "underset", "sqrt", "overline", "text", "boldsymbol", "substack"] ++ "\x7d")

/-! ## Tokens -/

mutual

def readTokens : Nat → Reader
  | 0, s => .ok s
  | steps + 1, s =>
    match readToken steps s with
    | .ok rest => readTokens steps rest
    | .error (.absent _ _) => .ok s
    | .error halt => .error halt

/-- Reads a token. A group that is still open at the end is wrong. -/
def readToken : Nat → Reader
  | 0, s => .error (.absent s "")
  | steps + 1, s =>
    match readOpening s with
    | .ok inside =>
      (readTokens steps inside).bind (fun rest =>
        match skipBlanks rest with
        | '\x7d' :: rest => readScripts steps [] rest
        | [] => .error (.final .wrong (some []) "Expected '\x7d'")
        | _ => readUnknown s)
    | .error _ => readFirst [readSimple steps, readDelimited steps, readUnknown] s

/-- Reads a space, a font, or something with its scripts, which may also stand alone. -/
def readSimple : Nat → Reader
  | 0, s => .error (.absent s "")
  | steps + 1, s =>
    readFirst
      [readSpacing,
        fun s =>
          let s := skipBlanks s
          match readPlaceable steps s with
          | .ok rest => readScripts steps [] rest
          | .error (.absent _ _) =>
            if s.head?.any (fun c => c = '_' || c = '^') then readScripts steps [] s
            else .error (.absent s "")
          | .error halt => .error halt]
      s

/-- Reads scripts and primes; `marks` are the marks of the scripts so far. -/
def readScripts : Nat → List Char → Reader
  | 0, _, s => .ok s
  | steps + 1, marks, s =>
    match skipBlanks s with
    | '_' :: rest =>
      ((readPlaceable steps rest).committed).bind (readScripts steps (marks ++ ['_']))
    | '^' :: rest =>
      ((readPlaceable steps rest).committed).bind (readScripts steps (marks ++ ['^']))
    | _ =>
      match doubled? [] marks with
      | some message => .error (.final .wrong none message)
      | none => .ok (dropPrimes s)

/-- Reads something that can have scripts or be one. -/
def readPlaceable : Nat → Reader
  | 0, s => .error (.absent s "")
  | steps + 1, s =>
    let group := readGroup steps
    let required := fun s => (readBraces (readSome steps) s).within "required_group"
    let optional := fun s => (readBraces (readTokens steps) s).within "optional_group"
    let fraction := readAll [required, required]
    let stack := readAll [optional, optional]
    let pair := "\x7bnum\x7d\x7bden\x7d"
    let annotated := "\x7bannotation\x7d\x7bbody\x7d"
    let delimiter := readBraces (readOptional (readAny delimiterNames))
    let style := readBraces (readOptional (readAny ["0", "1", "2", "3"]))
    let simples := readBraces (readSimples steps)
    match readFirst
        [readAccent steps, readSymbol, readName functionNames [],
          readCommand "operatorname" "\x7bname\x7d" simples] s with
    | .error (.absent _ _) =>
      match group s with
      -- a group that has been opened tells by itself what is missing
      | .error (.absent rest message) =>
        if rest.length < s.length then .error (.absent rest message)
        else
          readFirst
            [readCommand "frac" pair fraction, readCommand "dfrac" pair fraction,
              readCommand "binom" pair fraction,
              readCommand "genfrac"
                ("\x7bldelim\x7d\x7brdelim\x7d\x7brulesize\x7d\x7bstyle\x7d" ++ pair)
                (readAll [delimiter, delimiter, readBraces readNumber, style, required, required]),
              readCommand "overset" annotated stack, readCommand "underset" annotated stack,
              readCommand "sqrt" "\x7bvalue\x7d"
                (readAll [readOptional (readRoot steps), required]),
              readCommand "overline" "\x7bbody\x7d" required,
              readCommand "text" "" (readAll [readExactly ['\x7b'], readProtected]),
              readCommand "boldsymbol" "\x7bvalue\x7d" simples,
              readCommand "substack" "\x7bparts\x7d" (readStack steps),
              fun s => .error (.absent s scriptMessage)]
            s
      | other => other
    | other => other

def readAccent : Nat → Reader
  | 0, s => .error (.absent s "")
  | steps + 1, s =>
    (readName accentNames accentMarks s).bind (fun s =>
      ((readPlaceable steps (skipBlanks s)).within "named_placeable").committed)

def readGroup : Nat → Reader
  | 0, s => .error (.absent s "")
  | steps + 1, s => readAll [readOpening, readTokens steps, readClosing] s

def readSome : Nat → Reader
  | 0, s => .error (.absent s "")
  | steps + 1, s => readAll [readToken steps, readTokens steps] s

def readSimples : Nat → Reader
  | 0, s => .ok s
  | steps + 1, s =>
    match readSimple steps s with
    | .ok rest => readSimples steps rest
    | .error (.absent _ _) => .ok s
    | .error halt => .error halt

/-- Reads the index of a root, up to the bracket that closes it. -/
def readRoot : Nat → Reader
  | 0, s => .error (.absent s "")
  | steps + 1, s => readAll [readExactly ['['], readIndex steps, readExactly [']']] s

/-- Reads at least one token, up to a bracket. -/
def readIndex : Nat → Reader
  | 0, s => .error (.absent s "")
  | steps + 1, s =>
    if (skipBlanks s).head? = some ']' then .error (.absent s "")
    else (readToken steps s).bind (readOptional (readIndex steps))

def readStack : Nat → Reader
  | 0, s => .error (.absent s "")
  | steps + 1, s => readBraces (readLines steps) s

/-- Reads lines of tokens as long as there are any. Some of them may be between braces again. -/
def readLines : Nat → Reader
  | 0, s => .ok s
  | steps + 1, s =>
    match readFirst
        [readStack steps, fun s => (readSome steps s).map dropLineBreaks] s with
    | .ok rest => readLines steps rest
    | .error (.absent _ _) => .ok s
    | .error halt => .error halt

def readDelimited : Nat → Reader
  | 0, s => .error (.absent s "")
  | steps + 1, s =>
    (readExactly "\\left".toList s).bind (fun s =>
      (readAll [readDelimiter, readBetween steps, readExactly "\\right".toList, readDelimiter]
        s).committed)

/-- Reads simple tokens and delimiters as long as there are any. -/
def readBetween : Nat → Reader
  | 0, s => .ok s
  | steps + 1, s =>
    match readFirst
        [readSimple steps, readDelimited steps,
          readAll [readExactly "\\middle".toList, readDelimiter]] s with
    | .ok rest => readBetween steps rest
    | .error (.absent _ _) => .ok s
    | .error halt => .error halt

end

/-! ## Formulas -/

/-- The steps for a formula: more than there are readers for each of its characters. -/
def formulaSteps (s : List Char) : Nat := 12 * (s.length + 1)

inductive FormulaFault where
  /-- It is no row of tokens. -/
  | unreadable
  | complaint (c : Complaint)
deriving DecidableEq, Repr

/-- The complaint about the formula `s` when a reader stops in it. -/
def Halt.complaint (s : List Char) (severity : Severity) (rest : Option (List Char))
    (message : String) : Complaint :=
  match rest with
  | some rest => ⟨severity, message, s, s.length - rest.length⟩
  | none => ⟨severity, message, [], 0⟩

def formulaFault? (s : List Char) : Option FormulaFault :=
  match readSome (formulaSteps s) s with
  | .ok rest => if (skipBlanks rest).isEmpty then none else some .unreadable
  | .error (.absent _ _) => some .unreadable
  | .error (.final severity rest message) =>
    some (.complaint (Halt.complaint s severity rest message))

end LinearCalc.Legend
