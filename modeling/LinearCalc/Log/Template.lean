import LinearCalc.Labelled
import LinearCalc.Log.Place

set_option autoImplicit false

/-! # Message templates

Messages with places for arguments. A place begins with a percent sign and ends with a letter that
says how its argument is written. In between there may be, in this order, the name of a field in
parentheses, flags, a width, a precision after a point, and the letter of a size, which changes
nothing. A star instead of a width or a precision takes it from the arguments. Two percent signs
stand for one.
-/

namespace LinearCalc

/-! ## Reading templates -/

/-- A width or a precision. -/
inductive Measure where
  | fixed (n : Nat)
  /-- The next argument says it. -/
  | asked

structure Description where
  field : Option String := none
  flags : Place := {}
  width : Measure := .fixed 0
  precision : Option Measure := none

/-- What has been read of a description. -/
inductive Progress where
  | beginning
  /-- Some of the name of a field, with so many parentheses open in it. -/
  | field (depth : Nat) (name : List Char)
  | flags
  | width (m : Measure)
  /-- The point before the precision. -/
  | point
  | precision (m : Measure)
  | size

structure OpenDescription where
  progress : Progress := .beginning
  description : Description := {}

namespace OpenDescription

def digitOf (c : Char) : Nat := c.toNat - '0'.toNat

/-- A description with the letter of its size. -/
def size? (o : OpenDescription) (c : Char) : Option OpenDescription :=
  if c ∈ ['h', 'l', 'L'] then some { o with progress := .size } else none

def withPrecision (o : OpenDescription) (m : Measure) : OpenDescription :=
  ⟨.precision m, { o.description with precision := some m }⟩

def withWidth (o : OpenDescription) (m : Measure) : OpenDescription :=
  ⟨.width m, { o.description with width := m }⟩

/-- A description with the point before its precision, or what comes after that. -/
def point? (o : OpenDescription) (c : Char) : Option OpenDescription :=
  if c = '.' then some { o.withPrecision (.fixed 0) with progress := .point } else o.size? c

def flag? (p : Place) (c : Char) : Option Place :=
  match c with
  | '-' => some { p with left := true }
  | '0' => some { p with zeros := true }
  | '#' => some { p with full := true }
  | '+' => some { p with plus := ['+'] }
  -- a plus counts for more than a blank
  | ' ' => some { p with plus := if p.plus.isEmpty then [' '] else p.plus }
  | _ => none

/-- A description with one more flag, or what comes after the flags. -/
def afterField? (o : OpenDescription) (c : Char) : Option OpenDescription :=
  match flag? o.description.flags c with
  | some p => some ⟨.flags, { o.description with flags := p }⟩
  | none =>
    if c = '*' then some (o.withWidth .asked)
    else if c.isDigit then some (o.withWidth (.fixed (digitOf c)))
    else o.point? c

/-- A description with one more character of the name of its field. -/
def inField (o : OpenDescription) (depth : Nat) (name : List Char) (c : Char) : OpenDescription :=
  match c, depth with
  | ')', 0 => ⟨.flags, { o.description with field := some (String.ofList name) }⟩
  | ')', depth + 1 => { o with progress := .field depth (name ++ [c]) }
  | '(', depth => { o with progress := .field (depth + 1) (name ++ [c]) }
  | c, depth => { o with progress := .field depth (name ++ [c]) }

/-- A description with one more character; `none` if the character ends it. -/
def extend? (o : OpenDescription) (c : Char) : Option OpenDescription :=
  match o.progress with
  | .beginning => if c = '(' then some { o with progress := .field 0 [] } else o.afterField? c
  | .field depth name => some (o.inField depth name c)
  | .flags => o.afterField? c
  | .width (.fixed n) =>
    if c.isDigit then some (o.withWidth (.fixed (10 * n + digitOf c))) else o.point? c
  | .width .asked => o.point? c
  | .point =>
    if c = '*' then some (o.withPrecision .asked)
    else if c.isDigit then some (o.withPrecision (.fixed (digitOf c)))
    else o.size? c
  | .precision (.fixed n) =>
    if c.isDigit then some (o.withPrecision (.fixed (10 * n + digitOf c)))
    else o.size? c
  | .precision .asked => o.size? c
  | .size => none

end OpenDescription

inductive TemplatePart where
  | literal (c : Char)
  | place (d : Description) (letter : Char)

/-- Reads the parts of a template; `open?` is the description that is being read. -/
def readParts? (open? : Option OpenDescription) : List Char → Option (List TemplatePart)
  | [] => if open?.isSome then none else some []
  | c :: more =>
    match open? with
    | none =>
      match c, more with
      | '%', '%' :: more => (readParts? none more).map (.literal '%' :: ·)
      | '%', more => readParts? (some {}) more
      | c, more => (readParts? none more).map (.literal c :: ·)
    | some o =>
      match o.extend? c with
      | some o => readParts? (some o) more
      | none => (readParts? none more).map (.place o.description c :: ·)

/-! ## Filling templates -/

/-- The arguments that are left, and the record whose fields can be named. -/
structure Supply where
  left : List Argument
  record : Option (Labelled Argument)

namespace Supply

/-- The supply of the arguments of a message. A single record that is not empty gives its fields
by their names. -/
def ofArguments : List Argument → Supply
  | [.record (field :: fields)] => ⟨[.record (field :: fields)], some (field :: fields)⟩
  | arguments => ⟨arguments, none⟩

/-- All arguments have been used. The fields of a record need not be. -/
def isUsed (s : Supply) : Bool := s.record.isSome || s.left.isEmpty

def next? (s : Supply) : Option (Argument × Supply) :=
  match s.left with
  | [] => none
  | argument :: left => some (argument, { s with left := left })

/-- The supply after a field has been named: only what is in it is left. -/
def select? (s : Supply) : Option String → Option Supply
  | none => some s
  | some name => (s.record.bind (List.lookup name)).map (fun a => { s with left := [a] })

def maxWidth : Nat := twoPow 63 - 1

/-- The number that a measure is, if it is not too large. -/
def measure? (s : Supply) (limit : Nat) : Measure → Option (Int × Supply)
  | .fixed n => if n ≤ limit then some (n, s) else none
  | .asked => do
    let (argument, s) ← s.next?
    let n ← argument.toInteger?
    if n.natAbs ≤ limit then some (n, s) else none

/-- The place that a description asks for. A negative width fills up on the right, and a negative
precision is none at all. -/
def place? (s : Supply) (d : Description) : Option (Place × Supply) := do
  let s ← s.select? d.field
  let (width, s) ← s.measure? maxWidth d.width
  let wide : Place :=
    { d.flags with width := width.natAbs, left := d.flags.left || decide (width < 0) }
  match d.precision with
  | none => some (wide, s)
  | some m =>
    let (precision, s) ← s.measure? maxPrecision.toNat m
    some ({ wide with precision := some precision.toNat }, s)

end Supply

/-- Puts arguments into the places of a template; `none` if they do not fit. -/
def fillParts? (s : Supply) : List TemplatePart → Option (List Char)
  | [] => if s.isUsed then some [] else none
  | .literal c :: parts => (fillParts? s parts).map (c :: ·)
  | .place d letter :: parts => do
    let (p, s) ← s.place? d
    let (argument, s) ← s.next?
    let chars ← argument.formatted? p letter
    let more ← fillParts? s parts
    some (chars ++ more)

/-- A message with its arguments. Without arguments it is taken as it is. -/
def fillMessage? (template : String) (arguments : List Argument) : Option String :=
  if arguments.isEmpty then some template
  else do
    let parts ← readParts? none template.toList
    let chars ← fillParts? (.ofArguments arguments) parts
    some (String.ofList chars)

end LinearCalc
