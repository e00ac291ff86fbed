import LinearCalc.Text.Printable

set_option autoImplicit false

/-! # Quoted text

A text between quotes, on one line and in printable characters. The quotes are single ones, unless
the text holds single and no double quotes. Backslashes and the quote are escaped by a backslash,
line ends and tabs by their letters, and all other characters that cannot be shown by their code
point in hexadecimal.
-/

namespace LinearCalc

/-- The hexadecimal digits of a code point, filled up with zeros to the given length. -/
def hexDigits (length n : Nat) : List Char :=
  let digits := Nat.toDigits 16 n
  List.replicate (length - digits.length) '0' ++ digits

def codeEscape (c : Char) : List Char :=
  if c.toNat < 0x100 then '\\' :: 'x' :: hexDigits 2 c.toNat
  else if c.toNat < 0x10000 then '\\' :: 'u' :: hexDigits 4 c.toNat
  else '\\' :: 'U' :: hexDigits 8 c.toNat

def escapeChar (quote c : Char) : List Char :=
  if c = quote ∨ c = '\\' then ['\\', c]
  else if c = '\n' then ['\\', 'n']
  else if c = '\r' then ['\\', 'r']
  else if c = '\t' then ['\\', 't']
  else if isPrintable c then [c]
  else codeEscape c

/-- A text in which all characters beyond ASCII are written by their code points. -/
def asciiChars (text : List Char) : List Char :=
  text.flatMap (fun c => if c.toNat < 0x80 then [c] else codeEscape c)

/-- The quote that surrounds a text. -/
def quoteFor (text : List Char) : Char :=
  if text.contains '\'' && !text.contains '"' then '"' else '\''

def quoteChars (text : List Char) : List Char :=
  let quote := quoteFor text
  quote :: (text.flatMap (escapeChar quote) ++ [quote])

def quoted (text : String) : String := String.ofList (quoteChars text.toList)

def quotedList (texts : List String) : String :=
  "[" ++ ", ".intercalate (texts.map quoted) ++ "]"

def previewLength : Int := 60

/-- The first `limit` characters of a text; a negative limit counts from the end. -/
def takeLimit (limit : Int) (text : List Char) : List Char :=
  if limit < 0 then text.take (text.length - limit.natAbs) else text.take limit.toNat

/-- A quoted text, of which only the start is shown if it is longer than `limit`. -/
def preview (text : String) (limit : Int) : String :=
  let chars := text.toList
  if (chars.length : Int) ≤ limit then quoted text
  else
    quoted (String.ofList (takeLimit limit chars)) ++ " ... (" ++ toString chars.length ++
      " chars)"

end LinearCalc
