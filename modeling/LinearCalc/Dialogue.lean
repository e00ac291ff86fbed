import LinearCalc.Response
import LinearCalc.Text.Characters

set_option autoImplicit false

/-! # Dialogues

The calculator reads lines and answers each of them. The first word of a line may be a command;
any other line is an expression to be evaluated.
-/

namespace LinearCalc

/-- What a line asks for. -/
inductive Request where
  /-- Nothing, since the line is blank. -/
  | nothing
  /-- The end of the dialogue. -/
  | leave
  | help
  | tokens (text : String)
  | tree (text : String)
  | formula (text : String)
  | value (text : String)
deriving DecidableEq, Repr

/-- A character in lower case, as far as the names of commands are concerned. -/
def lowerCase (c : Char) : Char := if c = '\u212A' then 'k' else c.toLower

namespace Request

/-- What a line asks for. The text of a command begins after the first space. -/
def ofLine (line : String) : Request :=
  let line := trimBlanks line
  let chars := line.toList
  let text := String.ofList ((chars.dropWhile (· != ' ')).drop 1)
  if line = "" then .nothing
  else
    match String.ofList ((chars.takeWhile (· != ' ')).map lowerCase) with
    | "quit" => .leave
    | "exit" => .leave
    | "help" => .help
    | "tokens" => .tokens text
    | "tree" => .tree text
    | "latex" => .formula text
    | _ => .value line

end Request

/-- How the answers of a dialogue are written. -/
structure Manner where
  format : Format
  precision : Precision

/-! ## Texts -/

def greeting : String := "matcalc - type 'help' for commands, 'quit' to exit.\n"

def prompt : String := ">>> "

def farewell : String := "Goodbye.\n"

def dialogueHelp : String :=
  printLines
    ["Enter an expression to evaluate it, e.g.",
      "  (2+3)*4          scalars: + - * / ^",
      "  [1,2;3,4]        matrices: ',' separates columns, ';' separates rows",
      "  [1,2;3,4]^T      transpose",
      "  [1,2;3,4]^2      matrix power",
      "  [1,2,3]x[4,5,6]  cross product ('.' for dot product)",
      "",
      "Commands:",
      "  tokens <expr>    show the tokens of an expression",
      "  tree <expr>      show the parsed tree as JSON",
      "  latex <expr>     show the parsed expression as LaTeX",
      "  help             show this text",
      "  quit, exit       leave"]

/-! ## Answers -/

def Manner.answer (m : Manner) : Request → Except Breakdown Response
  | .nothing => .ok (.print "")
  | .leave => .ok (.print farewell)
  | .help => .ok (.print dialogueHelp)
  | .tokens text => .ok (.tokens text m.format)
  | .tree text => .ok (.tree text)
  | .formula text => .ok (.formula text)
  | .value text => Response.evaluation text m.precision m.format false

/-- A response after something else has been printed and logged. A dialogue always succeeds. -/
def Response.after (first : Response) (next : Response) : Response :=
  ⟨first.output ++ next.output, first.records ++ next.records, true⟩

/-- The dialogue over the given lines, from a prompt on. The end of the lines ends it, too. -/
def Manner.converse (m : Manner) : List String → Except Breakdown Response
  | [] => .ok (.print (prompt ++ "\n" ++ farewell))
  | line :: lines => do
    let request := Request.ofLine line
    let answer ← m.answer request
    let answered := (Response.print prompt).after answer
    -- the lines after the end of the dialogue are not read
    if request = .leave then return answered else return answered.after (← m.converse lines)

def Manner.dialogue (m : Manner) (lines : List String) : Except Breakdown Response :=
  (m.converse lines).map (Response.print greeting).after

end LinearCalc
