import OriginFacts.Json.ReadError

/-! Numbers in JSON text. A whole number may not have too many digits. -/

namespace OriginFacts.Json

/-- The digits in front of a text, and what follows them. -/
def spanDigits (text : List Char) : List Char × List Char :=
  text.span Char.isDigit

/-- A fraction in front of a text: a point and at least one digit. -/
def spanFraction (text : List Char) : List Char × List Char :=
  match text with
  | '.' :: rest =>
    match spanDigits rest with
    | ([], _) => ([], text)
    | (digits, rest) => ('.' :: digits, rest)
  | _ => ([], text)

/-- An exponent in front of a text: its mark, a sign if there is one, and at least one digit. -/
def spanExponent (text : List Char) : List Char × List Char :=
  match text with
  | mark :: rest =>
    if mark = 'e' ∨ mark = 'E' then
      let (sign, digits) :=
        match rest with
        | '+' :: rest => (['+'], rest)
        | '-' :: rest => (['-'], rest)
        | _ => ([], rest)
      match spanDigits digits with
      | ([], _) => ([], text)
      | (digits, rest) => (mark :: sign ++ digits, rest)
    else ([], text)
  | [] => ([], text)

/-- The whole part in front of a text: a zero, or digits that start with another one. -/
def spanWhole (text : List Char) : List Char × List Char :=
  match text with
  | '0' :: rest => (['0'], rest)
  | _ => spanDigits text

/-- The number that decimal digits write. -/
def natOfDigits (digits : List Char) : Nat :=
  digits.foldl (fun n c => n * 10 + (c.toNat - 48)) 0

/-- A number: the longest text that has the form of one. It is whole unless it has a fraction or an
exponent. -/
def readNumber (text : List Char) : Except Stuck (Json × List Char) :=
  let (negative, unsigned) :=
    match text with
    | '-' :: rest => (true, rest)
    | _ => (false, text)
  match spanWhole unsigned with
  | ([], _) => .error ⟨.value, text⟩
  | (whole, rest) =>
    let (fraction, rest) := spanFraction rest
    let (exponent, rest) := spanExponent rest
    let value : Int := natOfDigits whole
    if fraction.isEmpty && exponent.isEmpty then
      if maxDigits < whole.length then .error ⟨.longNumber whole.length, text⟩
      else .ok (.int (if negative then -value else value), rest)
    else
      let sign := if negative then ['-'] else []
      .ok (.float (String.ofList (sign ++ whole ++ fraction ++ exponent)), rest)

end OriginFacts.Json
