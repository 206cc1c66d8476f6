import OriginFacts.Document.Error

/-!
Where the statements of a document stand in its source: at given byte offsets, or at the next
occurrence of their text.
-/

namespace OriginFacts.Document

/-- The first position from `start` on at which the bytes occur. -/
def findFrom (source bytes : ByteArray) (start : Nat) : Option Nat :=
  (List.range' start (source.size + 1 - (start + bytes.size))).find? fun i =>
    (source.extract i (i + bytes.size)).data == bytes.data

/-- A span of given offsets. It covers at least one byte, stays inside the source and cuts no
character. -/
def checkOffsets (source : ByteArray) (start stop : Int) : Except Cause Span :=
  if 0 ≤ start ∧ start < stop ∧ stop ≤ (source.size : Int) then
    match (Span.mk start stop).textIn source with
    | .ok _ => .ok ⟨start, stop⟩
    | .error _ => .error (.splitsCharacter start stop)
  else .error (.outsideSource start stop source.size)

/-- The span of the next occurrence of a text. An empty text has none. -/
def locateText (source : ByteArray) (cursor : Nat) (text : String) : Except Cause Span :=
  let found := if text.isEmpty then none else findFrom source text.toUTF8 cursor
  match found with
  | some start => .ok ⟨start, start + text.utf8ByteSize⟩
  | none => .error (.textNotFound text)

end OriginFacts.Document
