import OriginFacts.Json.NumberReader
import OriginFacts.Json.StringReader

/-!
Reading JSON text. Beyond the standard, three names stand for numbers that are not finite. A text
that holds no value is refused with the first place at which it goes wrong. Values may be nested to
any depth: how deep a machine can go is not up to the text.
-/

namespace OriginFacts.Json

/-- The values that are written as words. -/
def words : List (List Char × Json) :=
  [("null".toList, .null), ("true".toList, .bool true), ("false".toList, .bool false),
   ("NaN".toList, .float "NaN"), ("Infinity".toList, .float "Infinity"),
   ("-Infinity".toList, .float "-Infinity")]

/-- A word or a number. -/
def readScalar (text : List Char) : Except Stuck (Json × List Char) :=
  match words.find? fun (word, _) => word.isPrefixOf text with
  | some (word, value) => .ok (value, text.drop word.length)
  | none => readNumber text

mutual

/-- A value. A list takes a step for itself and one for its items, and every two steps take a
character, so twice the length of the text and one more is enough fuel. -/
def readValue : Nat → List Char → Except Stuck (Json × List Char)
  | 0, text => .error ⟨.value, text⟩
  | fuel + 1, text =>
    match text with
    | '"' :: rest => do
      let (s, rest) ← readString rest
      return (.str s, rest)
    | '[' :: rest =>
      match skipBlanks rest with
      | ']' :: rest => .ok (.list [], rest)
      | rest => do
        let (items, rest) ← readItems fuel rest
        return (.list items, rest)
    | '\x7b' :: rest =>
      match skipBlanks rest with
      | '\x7d' :: rest => .ok (.object [], rest)
      | rest => do
        let (members, rest) ← readMembers fuel rest
        return (.object (Keyed.ofList members), rest)
    | _ => readScalar text

/-- The items of a list up to the closing bracket. -/
def readItems : Nat → List Char → Except Stuck (List Json × List Char)
  | 0, text => .error ⟨.value, text⟩
  | fuel + 1, text => do
    let (item, rest) ← readValue fuel text
    match skipBlanks rest with
    | ']' :: rest => return ([item], rest)
    | ',' :: rest => do
      let (items, rest) ← readItems fuel (skipBlanks rest)
      return (item :: items, rest)
    | rest => .error ⟨.comma, rest⟩

/-- The members of an object up to the closing brace. -/
def readMembers : Nat → List Char → Except Stuck (List (RawString × Json) × List Char)
  | 0, text => .error ⟨.memberName, text⟩
  | fuel + 1, text =>
    match text with
    | '"' :: rest => do
      let (key, rest) ← readString rest
      match skipBlanks rest with
      | ':' :: rest => do
        let (value, rest) ← readValue fuel (skipBlanks rest)
        match skipBlanks rest with
        | '\x7d' :: rest => return ([(key, value)], rest)
        | ',' :: rest => do
          let (members, rest) ← readMembers fuel (skipBlanks rest)
          return ((key, value) :: members, rest)
        | rest => .error ⟨.comma, rest⟩
      | rest => .error ⟨.colon, rest⟩
    | _ => .error ⟨.memberName, text⟩

end

/-- A text that holds one value and white space around it. -/
def readText (text : List Char) : Except Stuck Json :=
  match text with
  | '\uFEFF' :: _ => .error ⟨.byteOrderMark, text⟩
  | _ => do
    let (value, rest) ← readValue (2 * text.length + 1) (skipBlanks text)
    match skipBlanks rest with
    | [] => return value
    | rest => .error ⟨.extraData, rest⟩

/-- The value that a text holds. -/
def read (text : String) : Except ReadError Json :=
  match readText text.toList with
  | .ok value => .ok value
  | .error stuck => .error ⟨stuck.problem, Text.Position.before text.toList stuck.rest⟩

end OriginFacts.Json
