import OriginFacts.Text.Line

/-! The words and marks of the surface form of types and places. -/

namespace OriginFacts.Surface

/-- A token. A character that starts no other token is a token of its own, which no form uses. -/
inductive Token where
  | amp
  | opening
  | closing
  | less
  | greater
  | comma
  | star
  | dot
  | origin (name : String)
  | word (name : String)
  | stray (c : Char)
deriving DecidableEq, Repr

/-- A token with the text from its first character on. -/
structure Lexeme where
  token : Token
  text : List Char
deriving DecidableEq, Repr

/-- White space between tokens. -/
def isBlank (c : Char) : Bool :=
  c == ' ' || c == '\t' || c == '\x0c' || c == '\r' || c == '\n'

/-- A character that a name can start with. -/
def isNameStart (c : Char) : Bool :=
  c.isAlpha || c == '_'

/-- A character of a name. -/
def isNameChar (c : Char) : Bool :=
  c.isAlphanum || c == '_'

/-- The token of a single character. -/
def Token.ofChar (c : Char) : Token :=
  match c with
  | '&' => .amp
  | '(' => .opening
  | ')' => .closing
  | '<' => .less
  | '>' => .greater
  | ',' => .comma
  | '*' => .star
  | '.' => .dot
  | c => .stray c

/-- The tokens of a text. A name, and an origin behind its tick, is as long as it can be. -/
def lex : List Char → List Lexeme
  | [] => []
  | c :: cs =>
    if isBlank c then lex cs
    else if isNameStart c then
      ⟨.word (String.ofList (c :: cs.takeWhile isNameChar)), c :: cs⟩ ::
        lex (cs.dropWhile isNameChar)
    else if c = '\'' ∧ cs.takeWhile isNameChar ≠ [] then
      ⟨.origin (String.ofList (c :: cs.takeWhile isNameChar)), c :: cs⟩ ::
        lex (cs.dropWhile isNameChar)
    else ⟨.ofChar c, c :: cs⟩ :: lex cs
termination_by text => text.length
decreasing_by
  all_goals
    have := (List.dropWhile_sublist isNameChar (l := cs)).length_le
    simp only [List.length_cons]
    omega

end OriginFacts.Surface
