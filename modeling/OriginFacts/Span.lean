import OriginFacts.Fault

/-!
Byte ranges of a source. Texts are Unicode texts: a string with a surrogate in it is none, and has
no bytes that a range could count.
-/

namespace OriginFacts

/-- A source as a text, or as the bytes that encode one. -/
inductive Source where
  | text (content : String)
  | encoded (bytes : ByteArray)

/-- The bytes that spans count. -/
def Source.bytes : Source → ByteArray
  | .text content => content.toUTF8
  | .encoded bytes => bytes

/-- The bytes from `start` up to and without `stop`. -/
structure Span where
  start : Int
  stop : Int
deriving DecidableEq, Repr

namespace Span

def isEmpty (s : Span) : Bool :=
  s.stop ≤ s.start

/-- The spanned text without its last byte, which ends the statement. The span is refused when it
is empty, leaves the source or cuts a character. -/
def textIn (s : Span) (source : ByteArray) : Except Fault String :=
  if s.isEmpty ∨ s.start < 0 ∨ (source.size : Int) < s.stop then
    .error (.invalidSpan s.start s.stop source.size)
  else
    match String.fromUTF8? (source.extract s.start.toNat (s.stop - 1).toNat) with
    | some text => .ok text
    | none => .error (.invalidSpan s.start s.stop source.size)

/-- The spanned text of a source in either form. -/
def textOf (s : Span) (source : Source) : Except Fault String :=
  s.textIn source.bytes

end Span

end OriginFacts
