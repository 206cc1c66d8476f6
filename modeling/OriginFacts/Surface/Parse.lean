import OriginFacts.Surface.Grammar

/-! Parsing texts in surface form as a whole. -/

namespace OriginFacts.Surface

/-- What a text is read as. -/
inductive Form where
  | ty
  | place
  | origin
  | slot
deriving DecidableEq, Repr

def Form.name : Form → String
  | .ty => "ty"
  | .place => "place"
  | .origin => "origin"
  | .slot => "generic slot"

/-- A text that does not have its form, with the column at which that shows. -/
structure Error where
  form : Form
  text : String
  column : Nat
deriving DecidableEq, Repr

def Error.message (e : Error) : String :=
  "invalid " ++ e.form.name ++ " `" ++ e.text ++ "` (column " ++ toString e.column ++ ")"

/-- The column of the lexeme with `left` lexemes from it to the end. If none is left the text ended
too early, and the last lexeme counts; without any lexeme it is the first column. -/
def columnOf (text : List Char) (lexemes : List Lexeme) (left : Nat) : Nat :=
  match lexemes.drop (lexemes.length - max left 1) with
  | lexeme :: _ => (Text.Position.before text lexeme.text).column
  | [] => 1

/-- Reads a whole text. All of its tokens have to be taken. -/
def parseWith {α : Type} (form : Form) (read : List Token → Except (List Token) (α × List Token))
    (text : String) : Except Error α :=
  let lexemes := lex text.toList
  let fail (rest : List Token) : Except Error α :=
    .error ⟨form, text, columnOf text.toList lexemes rest.length⟩
  match read (lexemes.map (·.token)) with
  | .ok (value, []) => .ok value
  | .ok (_, rest) => fail rest
  | .error rest => fail rest

/-- The type that a text writes. -/
def parseTy : String → Except Error Ty :=
  parseWith .ty fun tokens => readTy (2 * tokens.length + 1) tokens

/-- The place that a text writes. -/
def parsePlace : String → Except Error Place :=
  parseWith .place readPlace

/-- The origin that a text writes. -/
def parseOrigin : String → Except Error Origin :=
  parseWith .origin readOrigin

/-- The generic slot that a text writes. -/
def parseSlot : String → Except Error GenericSlot :=
  parseWith .slot readSlot

end OriginFacts.Surface
