import OriginFacts.Ty.Printer

/-!
Faults: why no facts can be extracted from a program. Each is a mismatch between what a program
declares and what it uses, or a position that its source does not have.
-/

namespace OriginFacts

/-- A cause of failure, with the names that it speaks of. -/
inductive Fault where
  | unknownVariable (name : String) (place : Option String)
  | notAStruct (ty : Ty) (field : String)
  | unknownStruct (name : String) (field : String)
  | unknownField (struct : String) (field : String)
  | genericArgument (struct : String) (slot : String) (index : Int) (actual : Option Arg)
  | nodeOverflow (index : Int) (node : String)
  | nodeUnderflow (index : Int)
  | invalidSpan (start : Int) (stop : Int) (size : Int)

/-- The message about an index that a sequence does not have. Indices have 64 bits, one of them for
the sign; a larger number is none. -/
def Fault.indexMessage (sequence : String) (index : Int) : String :=
  if -0x8000000000000000 ≤ index ∧ index < 0x8000000000000000 then sequence ++ " index out of range"
  else "cannot fit 'int' into an index-sized integer"

/-- The wording of a fault. A place is named only where it says more than its variable. -/
def Fault.message : Fault → String
  | .unknownVariable name place =>
    let site :=
      match place with
      | some p => if p == name then "" else " (in place `" ++ p ++ "`)"
      | none => ""
    "can't find variable `" ++ name ++ "`" ++ site
  | .notAStruct ty field =>
    "type `" ++ ty.render ++ "` must be a struct to access its field `" ++ field ++ "`"
  | .unknownStruct name field => "can't find struct `" ++ name ++ "` at field `" ++ field ++ "`"
  | .unknownField struct field => "can't find field `" ++ field ++ "` in struct `" ++ struct ++ "`"
  | .genericArgument struct slot index actual =>
    let detail :=
      match actual with
      | some a => "should be a type, got `" ++ a.render ++ "`"
      | none => "is missing"
    "generic argument " ++ toString index ++ " (`" ++ slot ++ "`) of struct `" ++ struct ++ "` " ++
      detail
  | .nodeOverflow index node =>
    "can't turn statement #" ++ toString index ++ " into a single letter name for node " ++ node
  | .nodeUnderflow index => Fault.indexMessage "string" index
  | .invalidSpan start stop size =>
    "span " ++ toString start ++ ".." ++ toString stop ++
      " does not cover a statement in a source of " ++ toString size ++ " bytes"

end OriginFacts
