import OriginFacts.Json.Basic
import OriginFacts.Text.Hex

/-! JSON text in ASCII, with a blank after each comma and colon. -/

namespace OriginFacts.Json

/-- A unit of sixteen bits behind a backslash. -/
def renderUnit (n : Nat) : List Char :=
  '\\' :: 'u' :: Hex.padded 4 n

/-- One character of a string. What lies outside ASCII, or is a control, is written in units of
sixteen bits. -/
def renderChar (c : Char) : List Char :=
  if c = '"' ∨ c = '\\' then ['\\', c]
  else if c = '\n' then ['\\', 'n']
  else if c = '\r' then ['\\', 'r']
  else if c = '\t' then ['\\', 't']
  else if c = '\x08' then ['\\', 'b']
  else if c = '\x0c' then ['\\', 'f']
  else if ' ' ≤ c ∧ c ≤ '~' then [c]
  else if c.toNat < 0x10000 then renderUnit c.toNat
  else
    let n := c.toNat - 0x10000
    renderUnit (0xD800 + n / 0x400) ++ renderUnit (0xDC00 + n % 0x400)

/-- One code point of a string. -/
def renderPoint : CodePoint → List Char
  | .char c => renderChar c
  | .surrogate s => renderUnit s.toNat

/-- A string in quotes. -/
def renderString (s : RawString) : String :=
  String.ofList ('"' :: s.points.flatMap renderPoint ++ ['"'])

mutual

/-- A value as text. -/
def render : Json → String
  | .null => "null"
  | .bool true => "true"
  | .bool false => "false"
  | .int n => toString n
  | .float text => text
  | .str s => renderString s
  | .list items => "[" ++ renderItems items ++ "]"
  | .object members => "\x7b" ++ renderMembers members ++ "\x7d"

/-- The items of a list, with commas between them. -/
def renderItems : List Json → String
  | [] => ""
  | [item] => item.render
  | item :: items => item.render ++ ", " ++ renderItems items

/-- The members of an object, with commas between them. -/
def renderMembers : List (RawString × Json) → String
  | [] => ""
  | [(key, value)] => renderString key ++ ": " ++ value.render
  | (key, value) :: members =>
    renderString key ++ ": " ++ value.render ++ ", " ++ renderMembers members

end

end OriginFacts.Json
