import LinearCalc.Number.Numeral
import LinearCalc.Number.Shortest
import LinearCalc.Text.Quoted

set_option autoImplicit false

/-! # Arguments of messages

What can be put into a message: texts, numbers, truth values, nothing, and lists and records of
these. Every argument can be written as text; a few can be used as numbers or as characters.
-/

namespace LinearCalc

inductive Argument where
  | text (s : String)
  | integer (n : Int)
  | float (x : Float)
  | truth (b : Bool)
  | nothing
  | list (items : List Argument)
  /-- The fields of a record keep their order. -/
  | record (fields : List (String × Argument))

namespace Argument

/-! ## As text -/

mutual

def quotedText : Argument → String
  | text s => quoted s
  | integer n => toString n
  | float x => shortestText x
  | truth b => if b then "True" else "False"
  | nothing => "None"
  | list items => "[" ++ ", ".intercalate (quotedTexts items) ++ "]"
  | record fields => "\x7b" ++ ", ".intercalate (quotedFields fields) ++ "\x7d"

/-- The items of a list as they would be quoted. -/
def quotedTexts : List Argument → List String
  | [] => []
  | item :: items => quotedText item :: quotedTexts items

/-- The fields of a record as they would be quoted. -/
def quotedFields : List (String × Argument) → List String
  | [] => []
  | (name, item) :: fields => (quoted name ++ ": " ++ quotedText item) :: quotedFields fields

end

def shown : Argument → String
  | text s => s
  | argument => argument.quotedText

/-! ## As a number or a character -/

/-- The floating-point number that an argument is. An integer may be too large for one. -/
def toFloat? : Argument → Option Float
  | integer n => nearestFloat? n
  | float x => some x
  | truth b => some (if b then 1 else 0)
  | _ => none

def toInteger? : Argument → Option Int
  | integer n => some n
  | truth b => some (if b then 1 else 0)
  | _ => none

def integerPart? : Argument → Option Int
  | float x => (Binary64.ofFloat x).integerPart?
  | argument => argument.toInteger?

/-- The character that an argument is, or of which it is the code point. -/
def toChar? : Argument → Option Char
  | text s =>
    match s.toList with
    | [c] => some c
    | _ => none
  | argument =>
    match argument.toInteger? with
    | some (Int.ofNat n) => if n.isValidChar then some (Char.ofNat n) else none
    | _ => none

end Argument

end LinearCalc
