import LinearCalc.CommandLine.Word

set_option autoImplicit false

/-! # Uses of options

What a command line asks for, step by step: flags, options with what is given to them, and words
that belong to no option. Short flags can be joined in one word, and the last of them may be an
option with its value. A word that is wrong ends the list, since nothing after it counts.
-/

namespace LinearCalc.CommandLine

/-- What is given to an option. -/
inductive Given where
  | text (s : String)
  /-- The mark that ends the options was attached to the name. It is taken away, and then nothing
  is left. -/
  | nothing
deriving DecidableEq, Repr

/-- What is given to an option by attaching it to the name. -/
def Given.attached (chars : List Char) : Given :=
  let s := String.ofList chars
  if s = endOfOptions then nothing else text s

/-- A step of a command line. -/
inductive Use where
  | flag (o : Opt)
  | setting (o : Opt) (given : Given)
  | stray (text : String)
  | wrong (e : UsageError)
deriving DecidableEq, Repr

/-- The steps of one word. An option at its end may still wait for a value. -/
structure WordUses where
  uses : List Use
  waiting : Option Opt
deriving DecidableEq, Repr

namespace WordUses

def one (u : Use) : WordUses := ⟨[u], none⟩

/-- The steps of a word that begins with one more flag. -/
def cons (u : Use) (w : WordUses) : WordUses := ⟨u :: w.uses, w.waiting⟩

/-- The steps of a name to which nothing is attached. -/
def alone (o : Opt) : WordUses := if o.takesValue then ⟨[], some o⟩ else .one (.flag o)

end WordUses

/-- The steps of a short name and what is attached to it: a value, or more short names. -/
def readChain (o : Opt) (attached : List Char) : Except UsageError WordUses :=
  if o.takesValue then .ok (.one (.setting o (.attached attached)))
  else
    match attached with
    | [] => .error (.unwantedValue o "")
    | c :: more =>
      match Opt.ofName? (String.ofList ['-', c]) with
      | none => .error (.unwantedValue o (String.ofList (c :: more)))
      | some next =>
        if more.isEmpty then .ok ((WordUses.alone next).cons (.flag o))
        else (readChain next more).map (.cons (.flag o))

/-- The steps of an option and of what is attached to its name. -/
def readAttached (o : Opt) (kind : NameKind) : Option (List Char) → Except UsageError WordUses
  | none => .ok (.alone o)
  | some attached =>
    match kind with
    | .short => readChain o attached
    | .long =>
      if o.takesValue then .ok (.one (.setting o (.attached attached)))
      else .error (.unwantedValue o (String.ofList attached))

def readUses : List Word → List Use
  | [] => []
  | .value text :: words => .stray text :: readUses words
  | .stray text :: words => .stray text :: readUses words
  | .option o kind attached :: words =>
    match readAttached o kind attached with
    | .error e => [.wrong e]
    | .ok ⟨uses, none⟩ => uses ++ readUses words
    | .ok ⟨uses, some waiting⟩ =>
      match words with
      -- only a value will do: another option does not count as one
      | .value text :: words => uses ++ .setting waiting (.text text) :: readUses words
      | _ => [.wrong (.missingValue waiting)]

end LinearCalc.CommandLine
