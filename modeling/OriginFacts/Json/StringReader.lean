import OriginFacts.Json.ReadError
import OriginFacts.Text.Hex

/-! Strings in JSON text. A surrogate that is written without its other half is kept as it is. -/

namespace OriginFacts.Json

/-- What a letter behind a backslash stands for. -/
def escapes : List (Char × Char) :=
  [('"', '"'), ('\\', '\\'), ('/', '/'), ('b', '\x08'), ('f', '\x0c'), ('n', '\n'), ('r', '\r'),
   ('t', '\t')]

/-- The unit of sixteen bits that four digits write. -/
def unit? (a b c d : Char) : Option Nat := do
  let a ← Hex.value? a
  let b ← Hex.value? b
  let c ← Hex.value? c
  let d ← Hex.value? d
  return ((a * 16 + b) * 16 + c) * 16 + d

def isHighSurrogate (n : Nat) : Bool :=
  0xD800 ≤ n && n < 0xDC00

def isLowSurrogate (n : Nat) : Bool :=
  0xDC00 ≤ n && n < 0xE000

/-- The code point of a single unit. -/
def pointOfUnit (n : Nat) : CodePoint :=
  if h : 0xD800 ≤ n ∧ n < 0xE000 then .surrogate ⟨n - 0xD800, by omega⟩ else .char (Char.ofNat n)

/-- The character of a pair of surrogates. -/
def charOfPair (high low : Nat) : Char :=
  Char.ofNat (0x10000 + (high - 0xD800) * 0x400 + (low - 0xDC00))

/-- The code point that is written by four digits, read behind `\u`, and the text behind it. At least
one character has to follow the digits. A high surrogate takes an escaped low one with it if, again,
something follows. -/
def readUnicode (rest : List Char) : Except Stuck (CodePoint × List Char) :=
  match rest with
  | a :: b :: c :: d :: e :: tail =>
    match unit? a b c d with
    | none => .error ⟨.badUnicodeEscape, 'u' :: rest⟩
    | some high =>
      match isHighSurrogate high, e :: tail with
      | true, '\\' :: 'u' :: a' :: b' :: c' :: d' :: e' :: tail' =>
        match unit? a' b' c' d' with
        | none => .error ⟨.badUnicodeEscape, 'u' :: a' :: b' :: c' :: d' :: e' :: tail'⟩
        | some low =>
          if isLowSurrogate low then .ok (.char (charOfPair high low), e' :: tail')
          else .ok (pointOfUnit high, e :: tail)
      | _, after => .ok (pointOfUnit high, after)
  | _ => .error ⟨.badUnicodeEscape, 'u' :: rest⟩

/-- The code points up to the closing quote. Each step takes at least one character, so the length of
the text is enough fuel; `opening` is the text from the opening quote on. -/
def readPoints (opening : List Char) : Nat → List Char → Except Stuck (List CodePoint × List Char)
  | 0, _ => .error ⟨.unterminatedString, opening⟩
  | fuel + 1, text =>
    match text with
    | [] => .error ⟨.unterminatedString, opening⟩
    | '"' :: rest => .ok ([], rest)
    | '\\' :: [] => .error ⟨.unterminatedString, opening⟩
    | '\\' :: 'u' :: rest => do
      let (point, rest) ← readUnicode rest
      let (points, rest) ← readPoints opening fuel rest
      return (point :: points, rest)
    | '\\' :: letter :: rest => do
      match escapes.lookup letter with
      | none => .error ⟨.badEscape, text⟩
      | some c => do
        let (points, rest) ← readPoints opening fuel rest
        return (.char c :: points, rest)
    | c :: rest =>
      if c < ' ' then .error ⟨.controlCharacter, text⟩
      else do
        let (points, rest) ← readPoints opening fuel rest
        return (.char c :: points, rest)

/-- A string, read behind its opening quote. -/
def readString (rest : List Char) : Except Stuck (RawString × List Char) := do
  let (points, rest) ← readPoints ('"' :: rest) (rest.length + 1) rest
  return (.ofPoints points, rest)

end OriginFacts.Json
