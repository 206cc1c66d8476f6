import OriginFacts.Text.Hex

/-! Reading bytes as UTF-8, and where they stop being UTF-8. -/

namespace OriginFacts.Utf8

/-- What is wrong with a sequence of bytes. -/
inductive Reason where
  | invalidStart
  | invalidContinuation
  | unexpectedEnd
deriving DecidableEq, Repr

def Reason.message : Reason → String
  | .invalidStart => "invalid start byte"
  | .invalidContinuation => "invalid continuation byte"
  | .unexpectedEnd => "unexpected end of data"

/-- The first sequence that encodes no character: its first byte, where it stands, and how many
bytes belong to it. -/
structure Fault where
  lead : UInt8
  position : Nat
  length : Nat
  reason : Reason
deriving DecidableEq, Repr

def Fault.message (f : Fault) : String :=
  let what :=
    if f.length ≤ 1 then
      "byte 0x" ++ String.ofList (Hex.padded 2 f.lead.toNat) ++ " in position " ++
        toString f.position
    else
      "bytes in position " ++ toString f.position ++ "-" ++ toString (f.position + f.length - 1)
  "'utf-8' codec can't decode " ++ what ++ ": " ++ f.reason.message

/-- A byte that may follow a first byte, or a later one. -/
def isContinuation (b : UInt8) : Bool :=
  0x80 ≤ b && b ≤ 0xBF

/-- The conditions on the bytes after a first byte, one for each. The second byte is held to a
narrower range where a wider one would allow overlong forms, surrogates or numbers beyond the last
code point. -/
def followers (lead : UInt8) : Option (List (UInt8 → Bool)) :=
  if lead < 0x80 then some []
  else if lead < 0xC2 then none
  else if lead < 0xE0 then some [isContinuation]
  else if lead = 0xE0 then some [fun b => 0xA0 ≤ b && b ≤ 0xBF, isContinuation]
  else if lead = 0xED then some [fun b => 0x80 ≤ b && b ≤ 0x9F, isContinuation]
  else if lead < 0xF0 then some [isContinuation, isContinuation]
  else if lead = 0xF0 then some [fun b => 0x90 ≤ b && b ≤ 0xBF, isContinuation, isContinuation]
  else if lead < 0xF4 then some [isContinuation, isContinuation, isContinuation]
  else if lead = 0xF4 then some [fun b => 0x80 ≤ b && b ≤ 0x8F, isContinuation, isContinuation]
  else none

/-- How many of the bytes meet their conditions in turn, with what is wrong at the first that does
not. -/
def follow : List (UInt8 → Bool) → List UInt8 → Nat × Option Reason
  | [], _ => (0, none)
  | _ :: _, [] => (0, some .unexpectedEnd)
  | check :: checks, b :: bytes =>
    if check b then
      let (n, reason) := follow checks bytes
      (n + 1, reason)
    else (0, some .invalidContinuation)

/-- The first fault from a position on. The first `skip` bytes belong to a character that was
already read. -/
def firstFault (skip position : Nat) : List UInt8 → Option Fault
  | [] => none
  | b :: bytes =>
    match skip with
    | n + 1 => firstFault n (position + 1) bytes
    | 0 =>
      match followers b with
      | none => some ⟨b, position, 1, .invalidStart⟩
      | some checks =>
        match follow checks bytes with
        | (n, none) => firstFault n (position + 1) bytes
        | (n, some reason) => some ⟨b, position, n + 1, reason⟩

/-- The text that the bytes encode, or their first fault. -/
def decode (bytes : ByteArray) : Except Fault String :=
  match String.fromUTF8? bytes with
  | some text => .ok text
  | none => .error ((firstFault 0 0 bytes.toList).getD ⟨0, 0, 1, .invalidStart⟩)

end OriginFacts.Utf8
