import OriginFacts.Program
import OriginFacts.Surface.Token

/-!
The grammar of the surface form, read token by token:

    type  = i32 | ( ) | & ORIGIN mut type | & ORIGIN type | NAME | NAME < arg {, arg} >
    arg   = ORIGIN | type
    place = [*] NAME {. NAME}

The word `i32` names no struct. The word `mut` is a keyword directly behind `& ORIGIN` and a name
everywhere else. A reader gives what it read and the tokens behind it, or the tokens from the first
one that cannot stand where it stands.
-/

namespace OriginFacts.Surface

mutual

/-- A type. Every step takes a token or turns from an argument to its type, so twice the number of
tokens is enough fuel. -/
def readTy : Nat → List Token → Except (List Token) (Ty × List Token)
  | 0, tokens => .error tokens
  | fuel + 1, tokens =>
    match tokens with
    | .word name :: rest =>
      if name = "i32" then .ok (.i32, rest)
      else
        match rest with
        | .less :: rest => do
          let (args, rest) ← readArgs fuel rest
          return (.struct name args, rest)
        | _ => .ok (.struct name [], rest)
    | .opening :: .closing :: rest => .ok (.unit, rest)
    | .opening :: rest => .error rest
    | .amp :: .origin o :: .word name :: rest =>
      if name = "mut" then do
        let (target, rest) ← readTy fuel rest
        return (.ref .mutable o target, rest)
      else do
        let (target, rest) ← readTy fuel (.word name :: rest)
        return (.ref .shared o target, rest)
    | .amp :: .origin o :: rest => do
      let (target, rest) ← readTy fuel rest
      return (.ref .shared o target, rest)
    | .amp :: rest => .error rest
    | _ => .error tokens

/-- One argument of a struct. -/
def readArg : Nat → List Token → Except (List Token) (Arg × List Token)
  | 0, tokens => .error tokens
  | fuel + 1, tokens =>
    match tokens with
    | .origin o :: rest => .ok (.origin o, rest)
    | _ => do
      let (t, rest) ← readTy fuel tokens
      return (.ty t, rest)

/-- The arguments of a struct up to the closing bracket. -/
def readArgs : Nat → List Token → Except (List Token) (List Arg × List Token)
  | 0, tokens => .error tokens
  | fuel + 1, tokens => do
    let (arg, rest) ← readArg fuel tokens
    match rest with
    | .comma :: rest => do
      let (args, rest) ← readArgs fuel rest
      return (arg :: args, rest)
    | .greater :: rest => return ([arg], rest)
    | _ => .error rest

end

/-- The fields behind a place, each after a dot. -/
def readFields : List Token → Except (List Token) (List String × List Token)
  | .dot :: .word name :: rest => do
    let (fields, rest) ← readFields rest
    return (name :: fields, rest)
  | .dot :: rest => .error rest
  | tokens => .ok ([], tokens)

/-- A place behind its star. -/
def readPath (deref : Bool) : List Token → Except (List Token) (Place × List Token)
  | .word root :: rest => do
    let (fields, rest) ← readFields rest
    return (⟨deref, root, fields⟩, rest)
  | tokens => .error tokens

/-- A place. -/
def readPlace : List Token → Except (List Token) (Place × List Token)
  | .star :: rest => readPath true rest
  | tokens => readPath false tokens

/-- An origin. -/
def readOrigin : List Token → Except (List Token) (Origin × List Token)
  | .origin o :: rest => .ok (o, rest)
  | tokens => .error tokens

/-- A generic slot: an origin, or the name of a type. -/
def readSlot : List Token → Except (List Token) (GenericSlot × List Token)
  | .origin o :: rest => .ok (.origin o, rest)
  | .word name :: rest => .ok (.ty name, rest)
  | tokens => .error tokens

end OriginFacts.Surface
