import LinearCalc.Parse.Operand

set_option autoImplicit false

/-! # What the readers of operands can do

A property of what is read holds of everything that the readers read as soon as every single way
of reading keeps it (`ReaderInvariant.Kept`): an operand that is missing, a number, a minus before
a bracket, a link of a chain, a comma between the brackets of a matrix, and so on, one law for
each. The induction over the readers and the loops inside them is done here, once and for all
(`ReaderInvariant.Kept.operand`, `ReaderInvariant.Kept.chain`). Where a property is about two
readings, the second one is unfolded by the equations in front of the laws (`read_number`,
`links_sign`, `readItems_separator`).
-/

namespace LinearCalc

def Sign.token (s : Sign) (start : Nat) : Token := ⟨.sign s, start⟩

def Mark.token (m : Mark) (start : Nat) : Token := ⟨.mark m, start⟩

section Tokens

variable (s : Sign) (m : Mark) (start : Nat)

@[simp] theorem Sign.lexeme_token : (s.token start).lexeme = .sign s := rfl

@[simp] theorem Sign.start_token : (s.token start).start = start := rfl

@[simp] theorem Sign.stop_token : (s.token start).stop = start + 1 := rfl

@[simp] theorem Mark.lexeme_token : (m.token start).lexeme = .mark m := rfl

@[simp] theorem Mark.start_token : (m.token start).start = start := rfl

@[simp] theorem Mark.stop_token : (m.token start).stop = start + 1 := rfl

end Tokens

@[simp] theorem Sign.token_inj {s s' : Sign} {start start' : Nat} :
    s.token start = s'.token start' ↔ s = s' ∧ start = start' := by
  simp [token]

@[simp] theorem Mark.token_inj {m m' : Mark} {start start' : Nat} :
    m.token start = m'.token start' ↔ m = m' ∧ start = start' := by
  simp [token]

/-- A token is known by its lexeme and its offset. -/
theorem Token.eq_mark {token : Token} {mark : Mark} (h : token.lexeme = .mark mark) :
    token = mark.token token.start := by
  rw [Mark.token, ← h]

theorem Token.eq_sign {token : Token} {s : Sign} (h : token.lexeme = .sign s) :
    token = s.token token.start := by
  rw [Sign.token, ← h]

/-- The operand `right` of a minus, multiplied by a `-1` that covers the minus. -/
def Expr.negation (minus : Span) (right : Expr Float) (s : Span) : Expr Float :=
  binary .mul minus (number (-1) minus) right s

/-! ## The next word -/

/-- The word opens a bracket or is a minus, so that an operand which starts with it is nested. -/
def Lexeme.nests : Lexeme → Bool
  | .sign .minus => true
  | .mark .openParen => true
  | .mark .openBracket => true
  | _ => false

/-- An operand that a minus may negate starts with the word. -/
def Lexeme.negatable : Lexeme → Bool
  | .number _ => true
  | l => l.nests

def NoOperand (tokens : List Token) : Prop :=
  ∀ token ∈ tokens.head?, token.lexeme.startsOperand = false

/-- Nothing comes next that a minus may negate. -/
def NothingToNegate (tokens : List Token) : Prop :=
  ∀ token ∈ tokens.head?, token.lexeme.negatable = false

/-- Some tokens do not go on with an operator. -/
def NoSign (tokens : List Token) : Prop :=
  ∀ token ∈ tokens.head?, ∀ s, token.lexeme ≠ .sign s

@[simp] theorem noSign_nil : NoSign [] := by simp [NoSign]

@[simp] theorem noSign_mark (m : Mark) (start : Nat) (rest : List Token) :
    NoSign (m.token start :: rest) := by
  simp [NoSign]

def NotClosed (tokens : List Token) : Prop :=
  ∀ token ∈ tokens.head?, token.lexeme ≠ .mark .closeParen

/-- The word ends a slot of a matrix, as this item. -/
inductive Token.Separates : Token → Item → Prop where
  | comma (start : Nat) : Separates (Mark.comma.token start) (.comma (Mark.comma.token start).span)
  | semicolon (start : Nat) :
      Separates (Mark.semicolon.token start) (.semicolon (Mark.semicolon.token start).span)

@[grind =] theorem Lexeme.nests_iff {l : Lexeme} :
    l.nests = true ↔ l = sign .minus ∨ l = mark .openParen ∨ l = mark .openBracket := by
  unfold nests
  grind

/-- A word that nests starts an operand. -/
theorem Lexeme.startsOperand_of_nests {l : Lexeme} (h : l.nests = true) :
    l.startsOperand = true := by
  grind

/-- The mark that plays a role between the brackets of a matrix. -/
def Role.mark? : Role → Option Mark
  | .close => some .closeBracket
  | .comma => some .comma
  | .semicolon => some .semicolon
  | .stray => some .closeParen
  | .expression => none

theorem Lexeme.eq_mark_of_role {l : Lexeme} {mark : Mark} (h : l.role.mark? = some mark) :
    l = .mark mark := by
  unfold Lexeme.role at h
  split at h <;> cases h <;> rfl

/-! ## Readings made of readings -/

namespace Reading

def negation (minus : Nat) (right : Reading (Expr Float)) : Reading (Expr Float) :=
  right.map (fun e => .negation (Sign.minus.token minus).span e ⟨minus, e.span.stop⟩)

/-- A chain in parentheses, the second of which comes next. -/
def closed (opening closing : Nat) (inner : Reading (Expr Float)) (rest : List Token) :
    Reading (Expr Float) :=
  ⟨.paren inner.value ⟨opening, (Mark.closeParen.token closing).stop⟩, inner.diagnostics,
    .after (Mark.closeParen.token closing) rest⟩

/-- A parenthesis that ends with its content. -/
def unclosed (opening : Nat) (inner : Reading (Expr Float)) : Reading (Expr Float) :=
  ⟨.paren inner.value ⟨opening, inner.value.span.stop⟩,
    inner.diagnostics ++ [.expectedCloseParen], inner.cursor⟩

def matrix (opening : Nat) (found : Reading (List Item × Option Token)) : Reading (Expr Float) :=
  ⟨.matrix (rowsOfItems (lastSlotStop (Mark.openBracket.token opening) found.value.1 found.value.2)
      found.value.1)
      ⟨opening, matrixStop (Mark.openBracket.token opening) found.value.1 found.value.2⟩,
    found.diagnostics ++ List.replicate (surplus false found.value.1) .expectedSeparator,
    found.cursor⟩

/-- An operator with the operand after it, before the other links of a chain. -/
def link (s : Sign) (start : Nat) (right : Reading (Expr Float)) (more : Reading (List Link)) :
    Reading (List Link) :=
  (more.map (⟨s.operator, (s.token start).span, right.value⟩ :: ·)).precededBy right.diagnostics

/-- The first operand of a chain and its links, grouped. -/
def grouped (first : Reading (Expr Float)) (more : Reading (List Link)) : Reading (Expr Float) :=
  (more.map (assemble first.value)).precededBy first.diagnostics

def item (i : Item) (more : Reading (List Item × Option Token)) :
    Reading (List Item × Option Token) :=
  more.map (fun found => (i :: found.1, found.2))

def element (e : Reading (Expr Float)) (more : Reading (List Item × Option Token)) :
    Reading (List Item × Option Token) :=
  (more.item (.element e.value)).precededBy e.diagnostics

end Reading

/-! ## Single readings -/

theorem read_missing (n : Nat) (after : Option Nat) {c : Cursor} (h : NoOperand c.rest) :
    (operandReader n).read after c = missingOperand after c := by
  -- only what is nested needs a reader inside, so it may be any or none
  have hmissing (inner : Option OperandReader) :
      readOperand inner after c = missingOperand after c := by
    obtain ⟨rest, last⟩ := c
    cases rest with
    | nil => rfl
    | cons token rest =>
        have hno : token.lexeme.startsOperand = false := h token rfl
        unfold readOperand
        dsimp only
        split
        · rw [‹token.lexeme = _›] at hno
          cases hno
        · rw [‹token.lexeme = _›] at hno
          cases hno
        · rw [hno, if_neg Bool.false_ne_true]
  cases n with
  | zero => exact hmissing none
  | succ n => exact hmissing (some (operandReader n))

theorem read_number (n : Nat) (after : Option Nat) (digits : List Char) (start : Nat)
    (rest : List Token) (last : Nat) :
    (operandReader n).read after ⟨⟨.number digits, start⟩ :: rest, last⟩
      = ⟨.number (plainValue digits) (Token.span ⟨.number digits, start⟩), [],
          .after ⟨.number digits, start⟩ rest⟩ := by
  cases n <;> rfl

theorem read_transpose (n : Nat) (after : Option Nat) (start : Nat) (rest : List Token)
    (last : Nat) :
    (operandReader n).read after ⟨Mark.transpose.token start :: rest, last⟩
      = ⟨.symbol "T" (Mark.transpose.token start).span, [],
          .after (Mark.transpose.token start) rest⟩ := by
  cases n <;> rfl

/-- What nests is passed over when there is no reader inside, and goes to a reader of its own
otherwise. -/
theorem readOperand_nests (inner : Option OperandReader) (after : Option Nat) (token : Token)
    (rest : List Token) (last : Nat) (h : token.lexeme.nests = true) :
    readOperand inner after ⟨token :: rest, last⟩
      = inner.elim (passOver ⟨token :: rest, last⟩) (readNested · token rest) := by
  have hstarts := Lexeme.startsOperand_of_nests h
  unfold readOperand
  dsimp only
  split
  · rw [‹token.lexeme = _›] at h
    cases h
  · rw [‹token.lexeme = _›] at h
    cases h
  · rw [if_pos hstarts]
    cases inner <;> rfl

theorem read_tooDeep (after : Option Nat) (token : Token) (rest : List Token) (last : Nat)
    (h : token.lexeme.nests = true) :
    (operandReader 0).read after ⟨token :: rest, last⟩ = passOver ⟨token :: rest, last⟩ :=
  readOperand_nests none after token rest last h

/-- A minus takes the number after it into its own literal. -/
theorem read_negativeNumber (n : Nat) (after : Option Nat) (minus : Nat) (digits : List Char)
    (start : Nat) (rest : List Token) (last : Nat) :
    (operandReader (n + 1)).read after
        ⟨Sign.minus.token minus :: ⟨.number digits, start⟩ :: rest, last⟩
      = ⟨.number (-(plainValue digits)) ⟨minus, Token.stop ⟨.number digits, start⟩⟩, [],
          .after ⟨.number digits, start⟩ rest⟩ := rfl

/-- A minus multiplies any other operand after it. -/
theorem read_negation (n : Nat) (after : Option Nat) (minus : Nat) (token : Token)
    {rest : List Token} (last : Nat) (h : token.lexeme.nests = true)
    {right : Reading (Expr Float)}
    (hright : (operandReader n).read none (.after (Sign.minus.token minus) (token :: rest))
      = right) :
    (operandReader (n + 1)).read after ⟨Sign.minus.token minus :: token :: rest, last⟩
      = .negation minus right := by
  subst hright
  obtain ⟨lexeme, start⟩ := token
  unfold Lexeme.nests at h
  dsimp only at h
  split at h
  · rfl
  · rfl
  · rfl
  · cases h

/-- Before anything else a minus stands for a zero. -/
theorem read_bareMinus (n : Nat) (after : Option Nat) (minus : Nat) (rest : List Token)
    (last : Nat) (h : NothingToNegate rest) :
    (operandReader (n + 1)).read after ⟨Sign.minus.token minus :: rest, last⟩
      = ⟨.number 0 (Sign.minus.token minus).span, [.expectedNumber],
          .after (Sign.minus.token minus) rest⟩ := by
  cases rest with
  | nil => rfl
  | cons token rest =>
      have hno : token.lexeme.negatable = false := h token rfl
      show readNegation (operandReader n) (Sign.minus.token minus) (token :: rest) = _
      unfold readNegation
      dsimp only
      split
      all_goals first | rfl | (rw [‹token.lexeme = _›] at hno; cases hno)

/-- A chain in parentheses, when the next token closes them. -/
theorem read_closed (n : Nat) (after : Option Nat) (opening closing : Nat) {rest more : List Token}
    (last : Nat) {inner : Reading (Expr Float)}
    (hinner : chain (operandReader n) (.after (Mark.openParen.token opening) rest) = inner)
    (h : inner.cursor.rest = Mark.closeParen.token closing :: more) :
    (operandReader (n + 1)).read after ⟨Mark.openParen.token opening :: rest, last⟩
      = .closed opening closing inner more := by
  obtain ⟨value, found, left, last'⟩ := inner
  dsimp only at h
  subst h
  show readParen (operandReader n) (Mark.openParen.token opening) rest = _
  simp only [readParen, hinner]
  rfl

/-- A parenthesis that is not closed ends with its content. -/
theorem read_unclosed (n : Nat) (after : Option Nat) (opening : Nat) {rest : List Token}
    (last : Nat) {inner : Reading (Expr Float)}
    (hinner : chain (operandReader n) (.after (Mark.openParen.token opening) rest) = inner)
    (h : NotClosed inner.cursor.rest) :
    (operandReader (n + 1)).read after ⟨Mark.openParen.token opening :: rest, last⟩
      = .unclosed opening inner := by
  show readParen (operandReader n) (Mark.openParen.token opening) rest = _
  simp only [readParen, hinner]
  obtain ⟨value, found, left, last'⟩ := inner
  cases left with
  | nil => rfl
  | cons next left => exact if_neg (h next rfl)

theorem read_matrix (n : Nat) (after : Option Nat) (opening : Nat) {rest : List Token}
    (last : Nat) {found : Reading (List Item × Option Token)}
    (hfound : readItems (operandReader n) (Mark.openBracket.token opening).stop rest = found) :
    (operandReader (n + 1)).read after ⟨Mark.openBracket.token opening :: rest, last⟩
      = .matrix opening found := by
  subst hfound
  rfl

/-! ## Rounds of the loops -/

/-- A chain ends where no operator comes next. -/
theorem links_of_noSign (operand : OperandReader) (last : Nat) {rest : List Token}
    (h : NoSign rest) : links operand last rest = ⟨[], [], ⟨rest, last⟩⟩ := by
  cases rest with
  | nil => rw [links]
  | cons token rest =>
      rw [links]
      split
      · exact absurd ‹_› (h token rfl _)
      · rfl

/-- A chain goes on with an operator and the operand after it. -/
theorem links_sign (operand : OperandReader) (last : Nat) (s : Sign) (start : Nat)
    (rest : List Token) {right : Reading (Expr Float)}
    (h : operand.read (some (s.token start).stop) (.after (s.token start) rest) = right) :
    links operand last (s.token start :: rest)
      = .link s start right (links operand right.cursor.last right.cursor.rest) := by
  subst h
  rw [links]
  rfl

theorem readItems_nil (operand : OperandReader) (last : Nat) :
    readItems operand last [] = ⟨([], none), [.expectedCloseBracket], ⟨[], last⟩⟩ := by
  rw [readItems]

theorem readItems_close (operand : OperandReader) (last closing : Nat) (rest : List Token) :
    readItems operand last (Mark.closeBracket.token closing :: rest)
      = ⟨([], some (Mark.closeBracket.token closing)), [],
          .after (Mark.closeBracket.token closing) rest⟩ := by
  rw [readItems]
  rfl

/-- A comma or a semicolon is one item. -/
theorem readItems_separator (operand : OperandReader) (last : Nat) {token : Token} {item : Item}
    (h : token.Separates item) (rest : List Token) :
    readItems operand last (token :: rest)
      = (readItems operand token.stop rest).item item := by
  cases h with
  | comma start => rw [readItems]; rfl
  | semicolon start => rw [readItems]; rfl

theorem readItems_stray (operand : OperandReader) (last start : Nat) (rest : List Token) :
    readItems operand last (Mark.closeParen.token start :: rest)
      = (readItems operand (Mark.closeParen.token start).stop rest).precededBy
          [.unexpected (.mark .closeParen)] := by
  rw [readItems]
  rfl

/-- An expression is one item. -/
theorem readItems_element (operand : OperandReader) (last : Nat) (token : Token)
    (rest : List Token) {e : Reading (Expr Float)} (hrole : token.lexeme.role = .expression)
    (h : chain operand ⟨token :: rest, last⟩ = e) :
    readItems operand last (token :: rest)
      = .element e (readItems operand e.cursor.last e.cursor.rest) := by
  subst h
  rw [readItems]
  split <;> rename_i heq <;> rw [hrole] at heq <;> cases heq
  rfl

/-! ## Operands -/

/-- An operand is missing, or it is one word, or it is nested. In the last case it is passed over
at the nesting limit, and read by the function for its first word otherwise. -/
theorem readOperand_cases (inner : Option OperandReader) (after : Option Nat)
    {motive : Cursor → Reading (Expr Float) → Prop}
    (missing : ∀ c, NoOperand c.rest → motive c (missingOperand after c))
    (transpose : ∀ start rest last, motive ⟨Mark.transpose.token start :: rest, last⟩
      ⟨.symbol "T" (Mark.transpose.token start).span, [],
        .after (Mark.transpose.token start) rest⟩)
    (number : ∀ digits start rest last, motive ⟨⟨.number digits, start⟩ :: rest, last⟩
      ⟨.number (plainValue digits) (Token.span ⟨.number digits, start⟩), [],
        .after ⟨.number digits, start⟩ rest⟩)
    (tooDeep : inner = none → ∀ token rest last, token.lexeme.nests = true →
      motive ⟨token :: rest, last⟩ (passOver ⟨token :: rest, last⟩))
    (negation : ∀ reader, inner = some reader → ∀ start rest last,
      motive ⟨Sign.minus.token start :: rest, last⟩
        (readNegation reader (Sign.minus.token start) rest))
    (paren : ∀ reader, inner = some reader → ∀ start rest last,
      motive ⟨Mark.openParen.token start :: rest, last⟩
        (readParen reader (Mark.openParen.token start) rest))
    (matrix : ∀ reader, inner = some reader → ∀ start rest last,
      motive ⟨Mark.openBracket.token start :: rest, last⟩
        (readMatrix reader (Mark.openBracket.token start) rest))
    (c : Cursor) : motive c (readOperand inner after c) := by
  obtain ⟨rest, last⟩ := c
  -- by the first token; only for the three that nest does it matter whether a reader is left
  match rest with
  | [] => exact missing ⟨[], last⟩ (by simp [NoOperand])
  | ⟨.number digits, start⟩ :: rest => exact number digits start rest last
  | ⟨.sign s, start⟩ :: rest =>
      cases s with
      | minus =>
          cases inner with
          | none => exact tooDeep rfl _ rest last rfl
          | some reader => exact negation reader rfl start rest last
      | plus | star | slash | caret | dot | letterX | times =>
          exact missing ⟨_ :: rest, last⟩ (by simp [NoOperand, Lexeme.startsOperand])
  | ⟨.mark mark, start⟩ :: rest =>
      cases mark with
      | transpose => exact transpose start rest last
      | openParen =>
          cases inner with
          | none => exact tooDeep rfl _ rest last rfl
          | some reader => exact paren reader rfl start rest last
      | openBracket =>
          cases inner with
          | none => exact tooDeep rfl _ rest last rfl
          | some reader => exact matrix reader rfl start rest last
      | closeParen | closeBracket | comma | semicolon =>
          exact missing ⟨_ :: rest, last⟩ (by simp [NoOperand, Lexeme.startsOperand])

/-! ## Invariants of the readers -/

/-- A property of what is read: as an operand, when told where the operator before it stops; as the
links after an operand; as a chain; and between the brackets of a matrix. Each first argument is how
many readers there are inside the one that reads. -/
structure ReaderInvariant where
  ofOperand : Nat → Option Nat → Cursor → Reading (Expr Float) → Prop
  ofLinks : Nat → Nat → List Token → Reading (List Link) → Prop
  ofChain : Nat → Cursor → Reading (Expr Float) → Prop
  ofItems : Nat → Nat → List Token → Reading (List Item × Option Token) → Prop

namespace ReaderInvariant

/-- **Every way of reading keeps the property.** What a reading is made of is given with the reader
that it comes from, so that what is already known of this reader can be used too. -/
structure Kept (I : ReaderInvariant) : Prop where
  missing : ∀ n after c, NoOperand c.rest → I.ofOperand n after c (missingOperand after c)
  transpose : ∀ n after start rest last,
    I.ofOperand n after ⟨Mark.transpose.token start :: rest, last⟩
      ⟨.symbol "T" (Mark.transpose.token start).span, [], .after (Mark.transpose.token start) rest⟩
  number : ∀ n after digits start rest last,
    I.ofOperand n after ⟨⟨.number digits, start⟩ :: rest, last⟩
      ⟨.number (plainValue digits) (Token.span ⟨.number digits, start⟩), [],
        .after ⟨.number digits, start⟩ rest⟩
  /-- The nesting limit is reached. -/
  tooDeep : ∀ after token rest last, token.lexeme.nests = true →
    I.ofOperand 0 after ⟨token :: rest, last⟩ (passOver ⟨token :: rest, last⟩)
  negativeNumber : ∀ n after minus digits start rest last,
    I.ofOperand (n + 1) after ⟨Sign.minus.token minus :: ⟨.number digits, start⟩ :: rest, last⟩
      ⟨.number (-(plainValue digits)) ⟨minus, Token.stop ⟨.number digits, start⟩⟩, [],
        .after ⟨.number digits, start⟩ rest⟩
  negation : ∀ n after minus token rest last right, token.lexeme.nests = true →
    (operandReader n).read none (.after (Sign.minus.token minus) (token :: rest)) = right →
    I.ofOperand n none (.after (Sign.minus.token minus) (token :: rest)) right →
    I.ofOperand (n + 1) after ⟨Sign.minus.token minus :: token :: rest, last⟩
      (.negation minus right)
  bareMinus : ∀ n after minus rest last, NothingToNegate rest →
    I.ofOperand (n + 1) after ⟨Sign.minus.token minus :: rest, last⟩
      ⟨.number 0 (Sign.minus.token minus).span, [.expectedNumber],
        .after (Sign.minus.token minus) rest⟩
  closed : ∀ n after opening closing rest more last inner,
    chain (operandReader n) (.after (Mark.openParen.token opening) rest) = inner →
    inner.cursor.rest = Mark.closeParen.token closing :: more →
    I.ofChain n (.after (Mark.openParen.token opening) rest) inner →
    I.ofOperand (n + 1) after ⟨Mark.openParen.token opening :: rest, last⟩
      (.closed opening closing inner more)
  unclosed : ∀ n after opening rest last inner,
    chain (operandReader n) (.after (Mark.openParen.token opening) rest) = inner →
    NotClosed inner.cursor.rest →
    I.ofChain n (.after (Mark.openParen.token opening) rest) inner →
    I.ofOperand (n + 1) after ⟨Mark.openParen.token opening :: rest, last⟩ (.unclosed opening inner)
  matrix : ∀ n after opening rest last found,
    readItems (operandReader n) (Mark.openBracket.token opening).stop rest = found →
    I.ofItems n (Mark.openBracket.token opening).stop rest found →
    I.ofOperand (n + 1) after ⟨Mark.openBracket.token opening :: rest, last⟩ (.matrix opening found)
  noLinks : ∀ n last tokens, NoSign tokens → I.ofLinks n last tokens ⟨[], [], ⟨tokens, last⟩⟩
  link : ∀ n last s start rest right more,
    (operandReader n).read (some (s.token start).stop) (.after (s.token start) rest) = right →
    links (operandReader n) right.cursor.last right.cursor.rest = more →
    I.ofOperand n (some (s.token start).stop) (.after (s.token start) rest) right →
    I.ofLinks n right.cursor.last right.cursor.rest more →
    I.ofLinks n last (s.token start :: rest) (.link s start right more)
  grouped : ∀ n c first more, (operandReader n).read none c = first →
    links (operandReader n) first.cursor.last first.cursor.rest = more →
    I.ofOperand n none c first → I.ofLinks n first.cursor.last first.cursor.rest more →
    I.ofChain n c (.grouped first more)
  noBracket : ∀ n last, I.ofItems n last [] ⟨([], none), [.expectedCloseBracket], ⟨[], last⟩⟩
  bracket : ∀ n last closing rest,
    I.ofItems n last (Mark.closeBracket.token closing :: rest)
      ⟨([], some (Mark.closeBracket.token closing)), [],
        .after (Mark.closeBracket.token closing) rest⟩
  separator : ∀ n last token item rest more, token.Separates item →
    readItems (operandReader n) token.stop rest = more → I.ofItems n token.stop rest more →
    I.ofItems n last (token :: rest) (more.item item)
  stray : ∀ n last start rest more,
    readItems (operandReader n) (Mark.closeParen.token start).stop rest = more →
    I.ofItems n (Mark.closeParen.token start).stop rest more →
    I.ofItems n last (Mark.closeParen.token start :: rest)
      (more.precededBy [.unexpected (.mark .closeParen)])
  element : ∀ n last token rest e more, token.lexeme.role = .expression →
    chain (operandReader n) ⟨token :: rest, last⟩ = e →
    readItems (operandReader n) e.cursor.last e.cursor.rest = more →
    I.ofChain n ⟨token :: rest, last⟩ e → I.ofItems n e.cursor.last e.cursor.rest more →
    I.ofItems n last (token :: rest) (.element e more)

variable {I : ReaderInvariant} {n : Nat}

/-- The property holds of all operands that are read with `n` readers inside. -/
def HoldsAt (I : ReaderInvariant) (n : Nat) : Prop :=
  ∀ after c, I.ofOperand n after c ((operandReader n).read after c)

theorem Kept.links_of_operand (h : I.Kept) (hn : I.HoldsAt n) (last : Nat) (tokens : List Token) :
    I.ofLinks n last tokens (links (operandReader n) last tokens) := by
  fun_induction links (operandReader n) last tokens with
  | case1 last => exact h.noLinks n last [] noSign_nil
  | case2 last token rest s hsign right more ih =>
      obtain ⟨lexeme, start⟩ := token
      obtain rfl : lexeme = .sign s := hsign
      exact h.link n last s start rest right more rfl rfl (hn _ _) ih
  | case3 last token rest hno =>
      refine h.noLinks n last (token :: rest) ?_
      simpa [NoSign] using hno

theorem Kept.chain_of_operand (h : I.Kept) (hn : I.HoldsAt n) (c : Cursor) :
    I.ofChain n c (chain (operandReader n) c) :=
  h.grouped n c _ _ rfl rfl (hn none c) (h.links_of_operand hn _ _)

theorem Kept.items_of_operand (h : I.Kept) (hn : I.HoldsAt n) (last : Nat) (tokens : List Token) :
    I.ofItems n last tokens (readItems (operandReader n) last tokens) := by
  -- the rest of the items is the induction hypothesis; only an element asks for what holds of
  -- operands
  fun_induction readItems (operandReader n) last tokens with
  | case1 last => exact h.noBracket n last
  | case2 last token rest hrole =>
      obtain ⟨lexeme, start⟩ := token
      obtain rfl : lexeme = .mark .closeBracket :=
        Lexeme.eq_mark_of_role (congrArg Role.mark? hrole)
      exact h.bracket n last start rest
  | case3 last token rest hrole ih =>
      obtain ⟨lexeme, start⟩ := token
      obtain rfl : lexeme = .mark .comma := Lexeme.eq_mark_of_role (congrArg Role.mark? hrole)
      exact h.separator n last _ _ rest _ (.comma start) rfl ih
  | case4 last token rest hrole ih =>
      obtain ⟨lexeme, start⟩ := token
      obtain rfl : lexeme = .mark .semicolon := Lexeme.eq_mark_of_role (congrArg Role.mark? hrole)
      exact h.separator n last _ _ rest _ (.semicolon start) rfl ih
  | case5 last token rest hrole ih =>
      obtain ⟨lexeme, start⟩ := token
      obtain rfl : lexeme = .mark .closeParen :=
        Lexeme.eq_mark_of_role (congrArg Role.mark? hrole)
      exact h.stray n last start rest _ rfl ih
  | case6 last token rest hrole element more ih =>
      exact h.element n last token rest element more hrole rfl rfl (h.chain_of_operand hn _) ih

/-- A minus, whatever comes after it. -/
theorem Kept.read_minus (h : I.Kept) (hn : I.HoldsAt n) (after : Option Nat) (minus : Nat)
    (rest : List Token) (last : Nat) :
    I.ofOperand (n + 1) after ⟨Sign.minus.token minus :: rest, last⟩
      ((operandReader (n + 1)).read after ⟨Sign.minus.token minus :: rest, last⟩) := by
  by_cases hnothing : NothingToNegate rest
  · rw [read_bareMinus n after minus rest last hnothing]
    exact h.bareMinus n after minus rest last hnothing
  · obtain ⟨token, rest, rfl, hnegatable⟩ : ∃ token rest', rest = token :: rest' ∧
        token.lexeme.negatable = true := by
      cases rest with
      | nil => exact absurd (by simp [NothingToNegate]) hnothing
      | cons token rest => exact ⟨token, rest, rfl, by simpa [NothingToNegate] using hnothing⟩
    obtain ⟨lexeme, start⟩ := token
    -- a number is folded into the literal, and everything else is read by the reader inside
    cases lexeme with
    | number digits => exact h.negativeNumber n after minus digits start rest last
    | sign s =>
        rw [read_negation n after minus _ last hnegatable rfl]
        exact h.negation n after minus _ rest last _ hnegatable rfl (hn none _)
    | mark m =>
        rw [read_negation n after minus _ last hnegatable rfl]
        exact h.negation n after minus _ rest last _ hnegatable rfl (hn none _)

/-- An opening parenthesis, whether it is closed or not. -/
theorem Kept.read_paren (h : I.Kept) (hn : I.HoldsAt n) (after : Option Nat) (opening : Nat)
    (rest : List Token) (last : Nat) :
    I.ofOperand (n + 1) after ⟨Mark.openParen.token opening :: rest, last⟩
      ((operandReader (n + 1)).read after ⟨Mark.openParen.token opening :: rest, last⟩) := by
  have hinner := h.chain_of_operand hn (.after (Mark.openParen.token opening) rest)
  -- the same is read inside either way; the token behind it decides
  by_cases hopen : NotClosed (chain (operandReader n)
      (.after (Mark.openParen.token opening) rest)).cursor.rest
  · rw [read_unclosed n after opening last rfl hopen]
    exact h.unclosed n after opening rest last _ rfl hopen hinner
  · obtain ⟨closing, more, hclosed⟩ : ∃ closing more, (chain (operandReader n)
        (.after (Mark.openParen.token opening) rest)).cursor.rest
          = Mark.closeParen.token closing :: more := by
      generalize (chain (operandReader n)
        (.after (Mark.openParen.token opening) rest)).cursor.rest = left at hopen
      cases left with
      | nil => exact absurd (by simp [NotClosed]) hopen
      | cons token left =>
          have hclose : token.lexeme = .mark .closeParen := by simpa [NotClosed] using hopen
          exact ⟨token.start, left, by rw [← Token.eq_mark hclose]⟩
    rw [read_closed n after opening closing last rfl hclosed]
    exact h.closed n after opening closing rest more last _ rfl hclosed hinner

/-- **A property that every way of reading keeps holds of all operands that are read.** The
induction is over the readers inside one another. -/
theorem Kept.operand (h : I.Kept) (n : Nat) (after : Option Nat) (c : Cursor) :
    I.ofOperand n after c ((operandReader n).read after c) := by
  induction n generalizing after c with
  | zero =>
      refine readOperand_cases none after (motive := fun c r => I.ofOperand 0 after c r)
        (h.missing 0 after) (h.transpose 0 after) (h.number 0 after) (fun _ => h.tooDeep after)
        ?negation ?paren ?matrix c
      -- there is no reader inside
      case negation => exact fun _ hinner => nomatch hinner
      case paren => exact fun _ hinner => nomatch hinner
      case matrix => exact fun _ hinner => nomatch hinner
  | succ n ih =>
      refine readOperand_cases (some (operandReader n)) after
        (motive := fun c r => I.ofOperand (n + 1) after c r) (h.missing _ after)
        (h.transpose _ after) (h.number _ after) ?tooDeep ?negation ?paren ?matrix c
      case tooDeep => exact fun hinner => nomatch hinner
      case negation =>
        rintro _ ⟨⟩ start rest last
        exact h.read_minus ih after start rest last
      case paren =>
        rintro _ ⟨⟩ start rest last
        exact h.read_paren ih after start rest last
      case matrix =>
        rintro _ ⟨⟩ start rest last
        exact h.matrix n after start rest last _ rfl (h.items_of_operand ih _ _)

/-- **And of all chains.** -/
theorem Kept.chain (h : I.Kept) (n : Nat) (c : Cursor) :
    I.ofChain n c (chain (operandReader n) c) :=
  h.chain_of_operand (h.operand n) c

theorem Kept.items (h : I.Kept) (n last : Nat) (tokens : List Token) :
    I.ofItems n last tokens (readItems (operandReader n) last tokens) :=
  h.items_of_operand (h.operand n) last tokens

end ReaderInvariant
end LinearCalc
