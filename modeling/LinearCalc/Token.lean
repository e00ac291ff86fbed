import LinearCalc.Span

set_option autoImplicit false

/-! # Tokens

The words an expression is made of: numbers, the signs of the operators, and the seven marks
`( ) [ ] , ; T`. A token is a word together with the offset where it starts; since it covers
exactly its own characters, where it stops follows from its length.

A text is cut into tokens from left to right, and always by the longest word. A number is digits
with at most one point in it, which may come first or last; every other word is a single character.
A character that can start no word is passed over, as blanks are, so that scanning always succeeds.
-/

namespace LinearCalc

/-- The seven operations that join two expressions. -/
inductive Operator where
  | add
  | sub
  | mul
  | div
  | pow
  | dot
  | cross
deriving DecidableEq, Repr

namespace Operator

def symbol : Operator → String
  | add => "+"
  | sub => "-"
  | mul => "*"
  | div => "/"
  | pow => "^"
  | dot => "."
  | cross => "×"

/-- All operations, the loosest first. -/
def all : List Operator := [add, sub, mul, div, pow, dot, cross]

/-- The operation that is written with the given symbol, if there is one. -/
def ofSymbol? (s : String) : Option Operator := all.find? (fun op => op.symbol == s)

/-- How tightly an operation binds: `+ -` least, then `* /`, then `^`, and `. ×` most. -/
def binding : Operator → Nat
  | add | sub => 0
  | mul | div => 1
  | pow => 2
  | dot | cross => 3

end Operator

/-- The signs that are typed for the operations. The cross product has two of them, the letter
`x` and the sign `×`. -/
inductive Sign where
  | plus
  | minus
  | star
  | slash
  | caret
  | dot
  | letterX
  | times
deriving DecidableEq, Repr

namespace Sign

def char : Sign → Char
  | plus => '+'
  | minus => '-'
  | star => '*'
  | slash => '/'
  | caret => '^'
  | dot => '.'
  | letterX => 'x'
  | times => '×'

def operator : Sign → Operator
  | plus => .add
  | minus => .sub
  | star => .mul
  | slash => .div
  | caret => .pow
  | dot => .dot
  | letterX => .cross
  | times => .cross

/-- The sign that a character is, if it is one. -/
def ofChar? : Char → Option Sign
  | '+' => some plus
  | '-' => some minus
  | '*' => some star
  | '/' => some slash
  | '^' => some caret
  | '.' => some dot
  | 'x' => some letterX
  | '×' => some times
  | _ => none

theorem ofChar?_char (s : Sign) : ofChar? s.char = some s := by
  cases s <;> rfl

theorem char_of_ofChar? {c : Char} {s : Sign} (h : ofChar? c = some s) : c = s.char := by
  unfold ofChar? at h
  split at h <;> first | (cases h; rfl) | exact absurd h (by simp)

end Sign

/-- The brackets, the separators, and the letter `T` of the transpose. -/
inductive Mark where
  | openParen
  | closeParen
  | openBracket
  | closeBracket
  | comma
  | semicolon
  | transpose
deriving DecidableEq, Repr

namespace Mark

def char : Mark → Char
  | openParen => '('
  | closeParen => ')'
  | openBracket => '['
  | closeBracket => ']'
  | comma => ','
  | semicolon => ';'
  | transpose => 'T'

/-- The mark that a character is, if it is one. -/
def ofChar? : Char → Option Mark
  | '(' => some openParen
  | ')' => some closeParen
  | '[' => some openBracket
  | ']' => some closeBracket
  | ',' => some comma
  | ';' => some semicolon
  | 'T' => some transpose
  | _ => none

theorem ofChar?_char (m : Mark) : ofChar? m.char = some m := by
  cases m <;> rfl

theorem char_of_ofChar? {c : Char} {m : Mark} (h : ofChar? c = some m) : c = m.char := by
  unfold ofChar? at h
  split at h <;> first | (cases h; rfl) | exact absurd h (by simp)

end Mark

/-- A word: a number as it was typed, a sign, or a mark. -/
inductive Lexeme where
  | number (digits : List Char)
  | sign (s : Sign)
  | mark (m : Mark)
deriving DecidableEq, Repr

namespace Lexeme

def chars : Lexeme → List Char
  | number digits => digits
  | sign s => [s.char]
  | mark m => [m.char]

def text (l : Lexeme) : String := String.ofList l.chars

def length (l : Lexeme) : Nat := l.chars.length

/-- An operand may start with this word: a number, a minus, an opening bracket, or `T`. -/
def startsOperand : Lexeme → Bool
  | number _ => true
  | sign .minus => true
  | mark .openParen => true
  | mark .openBracket => true
  | mark .transpose => true
  | _ => false

/-- The word opens a bracket of either kind. -/
def opens : Lexeme → Bool
  | mark .openParen => true
  | mark .openBracket => true
  | _ => false

/-- The word closes a bracket of either kind. -/
def closes : Lexeme → Bool
  | mark .closeParen => true
  | mark .closeBracket => true
  | _ => false

section Kinds

variable {l : Lexeme}

@[grind =] theorem startsOperand_iff :
    l.startsOperand = true ↔ (∃ digits, l = number digits) ∨ l = sign .minus ∨
      l = mark .openParen ∨ l = mark .openBracket ∨ l = mark .transpose := by
  unfold startsOperand
  grind

@[grind =] theorem opens_iff : l.opens = true ↔ l = mark .openParen ∨ l = mark .openBracket := by
  unfold opens
  grind

@[grind =] theorem closes_iff :
    l.closes = true ↔ l = mark .closeParen ∨ l = mark .closeBracket := by
  unfold closes
  grind

end Kinds

end Lexeme

/-- A word and the offset of its first character. -/
structure Token where
  lexeme : Lexeme
  start : Nat
deriving DecidableEq, Repr

namespace Token

/-- The offset right after the last character of the token. -/
def stop (t : Token) : Nat := t.start + t.lexeme.length

def span (t : Token) : Span := ⟨t.start, t.stop⟩

end Token

/-! ## Scanning -/

/-- The characters that continue a number after its first digit: more digits, then perhaps a
point and the digits after it. -/
def numberTail (rest : List Char) : List Char :=
  rest.takeWhile Char.isDigit ++
    match rest.dropWhile Char.isDigit with
    | '.' :: more => '.' :: more.takeWhile Char.isDigit
    | _ => []

/-- The longest word that starts with `c` when `rest` follows it, if `c` starts a word at all. A
point starts a number when a digit follows, and is the sign of the dot product otherwise. -/
def munch (c : Char) (rest : List Char) : Option Lexeme :=
  if c.isDigit then
    some (.number (c :: numberTail rest))
  else if c == '.' && rest.head?.any Char.isDigit then
    some (.number ('.' :: rest.takeWhile Char.isDigit))
  else
    match Sign.ofChar? c with
    | some s => some (.sign s)
    | none => (Mark.ofChar? c).map .mark

/-- The tokens of `text`, whose first character stands at offset `offset`. -/
def scan (offset : Nat) : List Char → List Token
  | [] => []
  | c :: rest =>
    match munch c rest with
    | none => scan (offset + 1) rest
    -- the first character of the word is `c` itself, the others are at the front of `rest`
    | some word => ⟨word, offset⟩ :: scan (offset + word.length) (rest.drop (word.length - 1))
termination_by text => text.length

def tokenize (text : String) : List Token := scan 0 text.toList

end LinearCalc
