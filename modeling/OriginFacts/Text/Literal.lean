import OriginFacts.Text.Hex
import OriginFacts.Text.Printable

/-!
Text as a literal for messages: in single quotes, or in double ones where that saves escapes.
-/

namespace OriginFacts.Literal

/-- The quote around a text: double only if the text holds single quotes and no double one. -/
def quoteFor (text : List Char) : Char :=
  if text.contains '\'' && !text.contains '"' then '"' else '\''

/-- One character inside the quotes. What is not printable is written by its code point, with as
few digits as its size allows. -/
def encodeChar (quote c : Char) : List Char :=
  if c = quote ∨ c = '\\' then ['\\', c]
  else if c = '\n' then ['\\', 'n']
  else if c = '\r' then ['\\', 'r']
  else if c = '\t' then ['\\', 't']
  else if Text.isPrintable c then [c]
  else if c.toNat < 0x100 then '\\' :: 'x' :: Hex.padded 2 c.toNat
  else if c.toNat < 0x10000 then '\\' :: 'u' :: Hex.padded 4 c.toNat
  else '\\' :: 'U' :: Hex.padded 8 c.toNat

/-- A text as a literal. -/
def render (text : String) : String :=
  let cs := text.toList
  let quote := quoteFor cs
  String.ofList (quote :: cs.flatMap (encodeChar quote) ++ [quote])

/-- A list of texts as literals in brackets. -/
def renderList (texts : List String) : String :=
  "[" ++ ", ".intercalate (texts.map render) ++ "]"

end OriginFacts.Literal
