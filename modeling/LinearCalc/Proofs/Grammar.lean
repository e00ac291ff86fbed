import LinearCalc.Proofs.Grouping
import LinearCalc.Proofs.Readers

set_option autoImplicit false

/-! # The grammar of expressions

The grammar is

    sum     := product (('+' | '-') product)*
    product := power (('*' | '/') power)*
    power   := vector ('^' vector)*
    vector  := operand (('.' | '×') operand)*
    operand := 'T' | term
    term    := number | '-' term | '(' sum ')' | '[' slot ((',' | ';') slot)* ']'
    slot    := nothing | sum

and its derivations are the values of the types below, one type for each kind of phrase. A word of
the text stands in a derivation together with its offset, so that a derivation spells out a list of
tokens (`tokens`). What a derivation means is its `tree`.

The four chains of operators are one family: `Phrase n` is a chain over `Phrase (n - 1)`, and
`Phrase 0` is an operand. A chain has the operators above which there are `n - 1` tighter levels.
-/

namespace LinearCalc

/-- What stands between two slots of a matrix. -/
inductive Separator where
  | comma
  | semicolon
deriving DecidableEq

def Separator.mark : Separator → Mark
  | .comma => .comma
  | .semicolon => .semicolon

/-! ## Derivations -/

mutual

/-- An operand other than `T`. -/
inductive Term : Type where
  | number (digits : List Char) (start : Nat)
  | negation (minus : Nat) (body : Term)
  | paren (opening : Nat) (inner : Phrase 4) (closing : Nat)
  | matrix (opening : Nat) (slots : Slots) (closing : Nat)

/-- An operand, or a chain of looser and looser operators. -/
inductive Phrase : Nat → Type where
  | transpose (start : Nat) : Phrase 0
  | term (t : Term) : Phrase 0
  | chain {n : Nat} (first : Phrase n) (more : Tail n) : Phrase (n + 1)

/-- What follows the first phrase of a chain: signs of one level, each with a phrase after it. -/
inductive Tail : Nat → Type where
  | nil {n : Nat} : Tail n
  | cons {n : Nat} (sign : Sign) (level : sign.operator.tier = n) (start : Nat)
      (operand : Phrase n) (more : Tail n) : Tail n

inductive Slot : Type where
  | empty
  | filled (content : Phrase 4)

inductive Slots : Type where
  | last (slot : Slot)
  | more (slot : Slot) (separator : Separator) (start : Nat) (rest : Slots)

end

/-- A whole expression. -/
abbrev Sum := Phrase 4

/-! ## What a derivation spells out -/

mutual

def Term.tokens : Term → List Token
  | .number digits start => [⟨.number digits, start⟩]
  | .negation minus body => Sign.minus.token minus :: body.tokens
  | .paren opening inner closing =>
    Mark.openParen.token opening :: (inner.tokens ++ [Mark.closeParen.token closing])
  | .matrix opening slots closing =>
    Mark.openBracket.token opening :: (slots.tokens ++ [Mark.closeBracket.token closing])

def Phrase.tokens {n : Nat} : Phrase n → List Token
  | .transpose start => [Mark.transpose.token start]
  | .term t => t.tokens
  | .chain first more => first.tokens ++ more.tokens

/-- The tokens of what follows the first phrase of a chain. -/
def Tail.tokens {n : Nat} : Tail n → List Token
  | .nil => []
  | .cons sign _ start operand more => sign.token start :: (operand.tokens ++ more.tokens)

def Slot.tokens : Slot → List Token
  | .empty => []
  | .filled content => content.tokens

def Slots.tokens : Slots → List Token
  | .last slot => slot.tokens
  | .more slot separator start rest => slot.tokens ++ separator.mark.token start :: rest.tokens

end

attribute [simp] Term.tokens Phrase.tokens Tail.tokens Slot.tokens Slots.tokens

/-! ## How deep a derivation is nested -/

mutual

/-- The most parentheses, matrices and minus signs of a term that stand inside one another. -/
def Term.nesting : Term → Nat
  | .number _ _ => 0
  | .negation _ body => body.nesting + 1
  | .paren _ inner _ => inner.nesting + 1
  | .matrix _ slots _ => slots.nesting + 1

def Phrase.nesting {n : Nat} : Phrase n → Nat
  | .transpose _ => 0
  | .term t => t.nesting
  | .chain first more => max first.nesting more.nesting

/-- The nesting of what follows the first phrase of a chain. -/
def Tail.nesting {n : Nat} : Tail n → Nat
  | .nil => 0
  | .cons _ _ _ operand more => max operand.nesting more.nesting

def Slot.nesting : Slot → Nat
  | .empty => 0
  | .filled content => content.nesting

def Slots.nesting : Slots → Nat
  | .last slot => slot.nesting
  | .more slot _ _ rest => max slot.nesting rest.nesting

end

attribute [simp] Term.nesting Phrase.nesting Tail.nesting Slot.nesting Slots.nesting

/-! ## What a derivation means -/

/-- The characters from the first of some tokens to the last of them. -/
def extent (tokens : List Token) : Span :=
  ⟨(tokens.head?.map Token.start).getD 0, (tokens.getLast?.map Token.stop).getD 0⟩

mutual

/-- The tree of a term. A minus before a number belongs to the number; any other minus multiplies
by `-1`. -/
def Term.tree : Term → Expr Float
  | .number digits start => .number (plainValue digits) (extent (Term.number digits start).tokens)
  | .negation minus (.number digits start) =>
    .number (-(plainValue digits)) (extent (Term.negation minus (.number digits start)).tokens)
  | .negation minus body =>
    .binary .mul (Sign.minus.token minus).span (.number (-1) (Sign.minus.token minus).span)
      body.tree (extent (Term.negation minus body).tokens)
  | .paren opening inner closing =>
    .paren inner.tree (extent (Term.paren opening inner closing).tokens)
  | .matrix opening slots closing =>
    .matrix ((slots.rows closing).1 :: (slots.rows closing).2)
      (extent (Term.matrix opening slots closing).tokens)

def Phrase.tree {n : Nat} : Phrase n → Expr Float
  | .transpose start => .symbol "T" (extent [Mark.transpose.token start])
  | .term t => t.tree
  | .chain first more => more.foldTree first.tokens first.tree

/-- The tree of a chain, folded from the left: `left` is the tree of what has been folded already,
and `before` are its tokens. -/
def Tail.foldTree {n : Nat} (before : List Token) (left : Expr Float) : Tail n → Expr Float
  | .nil => left
  | .cons sign _ start operand more =>
    more.foldTree (before ++ sign.token start :: operand.tokens)
      (.binary sign.operator (sign.token start).span left operand.tree
        (extent (before ++ sign.token start :: operand.tokens)))

/-- The element of a slot that ends at `stop`: its phrase, or a placeholder. -/
def Slot.element (stop : Nat) : Slot → Expr Float
  | .empty => .placeholder (.point stop)
  | .filled content => content.tree

/-- The elements of a matrix that is closed at `closing`: the first row, and the rows after it. A
semicolon ends a row. -/
def Slots.rows (closing : Nat) : Slots → List (Expr Float) × List (List (Expr Float))
  | .last slot => ([slot.element closing], [])
  | .more slot .comma start rest =>
    (slot.element start :: (rest.rows closing).1, (rest.rows closing).2)
  | .more slot .semicolon start rest =>
    ([slot.element start], (rest.rows closing).1 :: (rest.rows closing).2)

end

end LinearCalc
