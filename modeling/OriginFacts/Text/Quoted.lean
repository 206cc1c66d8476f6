import OriginFacts.Text.Hex

/-!
Text in double quotes. A character is written as it is, behind a backslash by its letter, or by its
code point in braces.
-/

namespace OriginFacts.Quoted

/-- The characters that have a letter of their own behind the backslash. -/
def letters : List (Char × Char) :=
  [('\\', '\\'), ('"', '"'), ('\n', 'n'), ('\r', 'r'), ('\t', 't'), ('\x00', '0')]

/-- One character. What is not printable is written by its code point. -/
def encodeChar (printable : Char → Bool) (c : Char) : List Char :=
  match letters.lookup c with
  | some letter => ['\\', letter]
  | none => if printable c then [c] else '\\' :: 'u' :: '\x7b' :: Hex.digits c.toNat ++ ['\x7d']

/-- A text in quotes, for a choice of the printable characters. -/
def encode (printable : Char → Bool) (text : List Char) : List Char :=
  '"' :: text.flatMap (encodeChar printable) ++ ['"']

end OriginFacts.Quoted
