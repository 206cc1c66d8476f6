import OriginFacts.Text.Hex

/-!
Strings of code points. Most of them are texts. A string in which a surrogate stands alone is no
text, and UTF-8 has no bytes for it.
-/

namespace OriginFacts

/-- One of the code points from U+D800 on that stand for no character: pairs are made of them. -/
structure Surrogate where
  offset : Fin 0x800
deriving DecidableEq, Repr

def Surrogate.toNat (s : Surrogate) : Nat :=
  0xD800 + s.offset.val

/-- A character, or a surrogate. -/
inductive CodePoint where
  | char (c : Char)
  | surrogate (s : Surrogate)
deriving DecidableEq, Repr

def CodePoint.isSurrogate : CodePoint → Bool
  | .char _ => false
  | .surrogate _ => true

/-- A string that is no text: the characters in front of its first surrogate, and what stands behind
that. -/
structure LoneString where
  before : String
  first : Surrogate
  rest : List CodePoint
deriving DecidableEq, Repr

/-- A string: a text, or one with a surrogate in it. -/
inductive RawString where
  | text (value : String)
  | lone (value : LoneString)
deriving DecidableEq, Repr

instance : Coe String RawString :=
  ⟨.text⟩

/-- The surrogates that keep a string from having bytes: the first one, where it stands, and how
many stand there in a row. -/
structure EncodeFault where
  first : Surrogate
  position : Nat
  length : Nat
deriving DecidableEq, Repr

def EncodeFault.message (f : EncodeFault) : String :=
  let what :=
    if f.length ≤ 1 then
      "character '\\u" ++ String.ofList (Hex.padded 4 f.first.toNat) ++ "' in position " ++
        toString f.position
    else
      "characters in position " ++ toString f.position ++ "-" ++
        toString (f.position + f.length - 1)
  "'utf-8' codec can't encode " ++ what ++ ": surrogates not allowed"

def LoneString.fault (s : LoneString) : EncodeFault :=
  ⟨s.first, s.before.length, (s.rest.takeWhile CodePoint.isSurrogate).length + 1⟩

namespace RawString

/-- The characters in front of the first surrogate; that surrogate, if there is one, and the rest.
-/
def splitPoints : List CodePoint → List Char × Option (Surrogate × List CodePoint)
  | [] => ([], none)
  | .char c :: points =>
    let (cs, rest) := splitPoints points
    (c :: cs, rest)
  | .surrogate s :: points => ([], some (s, points))

/-- The string of given code points. -/
def ofPoints (points : List CodePoint) : RawString :=
  match splitPoints points with
  | (cs, none) => .text (String.ofList cs)
  | (cs, some (first, rest)) => .lone ⟨String.ofList cs, first, rest⟩

/-- The code points of a string. -/
def points : RawString → List CodePoint
  | .text value => value.toList.map .char
  | .lone value => value.before.toList.map .char ++ .surrogate value.first :: value.rest

/-- The text that a string is, and that UTF-8 has bytes for. -/
def toText : RawString → Except EncodeFault String
  | .text value => .ok value
  | .lone value => .error value.fault

end RawString

end OriginFacts
