import OriginFacts.Json.Basic
import OriginFacts.Text.Line

/-! Why a text holds no JSON value, and where that shows. -/

namespace OriginFacts.Json

/-- The most digits that a whole number may have. -/
def maxDigits : Nat := 4300

/-- Why a text is no JSON value, or none that can be read: a number with too many digits has the form
of a value. -/
inductive Problem where
  | value
  | memberName
  | colon
  | comma
  | extraData
  | unterminatedString
  | controlCharacter
  | badEscape
  | badUnicodeEscape
  | byteOrderMark
  | longNumber (digits : Nat)
deriving DecidableEq, Repr

def Problem.message : Problem → String
  | .value => "Expecting value"
  | .memberName => "Expecting property name enclosed in double quotes"
  | .colon => "Expecting ':' delimiter"
  | .comma => "Expecting ',' delimiter"
  | .extraData => "Extra data"
  | .unterminatedString => "Unterminated string starting at"
  | .controlCharacter => "Invalid control character at"
  | .badEscape => "Invalid \\escape"
  | .badUnicodeEscape => "Invalid \\uXXXX escape"
  | .byteOrderMark => "Unexpected UTF-8 BOM (decode using utf-8-sig)"
  | .longNumber digits =>
    "Exceeds the limit (" ++ toString maxDigits ++ " digits) for integer string conversion: " ++
      "value has " ++ toString digits ++
      " digits; use sys.set_int_max_str_digits() to increase the limit"

/-- A problem and where it shows. -/
structure ReadError where
  problem : Problem
  position : Text.Position
deriving DecidableEq, Repr

/-- The message names the place, unless the form of the text is not at fault. -/
def ReadError.message (e : ReadError) : String :=
  match e.problem with
  | .longNumber _ => e.problem.message
  | _ =>
    e.problem.message ++ ": line " ++ toString e.position.line ++ " column " ++
      toString e.position.column ++ " (char " ++ toString e.position.offset ++ ")"

/-- A problem and the text from there on. A reader gives this, or what it read together with the text
behind it. -/
structure Stuck where
  problem : Problem
  rest : List Char

/-- The text without the white space in front. -/
def skipBlanks : List Char → List Char :=
  List.dropWhile fun c => c == ' ' || c == '\t' || c == '\n' || c == '\r'

end OriginFacts.Json
