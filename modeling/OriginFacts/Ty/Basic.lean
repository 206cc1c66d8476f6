/-!
Types with named origins. A struct type carries its generic arguments, each an origin or a type;
inside a declaration a generic type slot is written as a struct type of that name.
-/

namespace OriginFacts

/-- The name of an origin as it is written, tick included: `'a`. -/
abbrev Origin := String

/-- Whether a reference or a borrow gives shared or exclusive access. -/
inductive Mutability where
  | shared
  | mutable
deriving DecidableEq, Repr

mutual

/-- A type: a number, the unit, a reference or a struct with its arguments. -/
inductive Ty where
  | i32
  | unit
  | ref (mutability : Mutability) (origin : Origin) (target : Ty)
  | struct (name : String) (args : List Arg)

/-- A generic argument of a struct type. -/
inductive Arg where
  | origin (origin : Origin)
  | ty (ty : Ty)

end

/-! ## Origins of a type -/

mutual

/-- The list `acc` followed by every origin written in the type, outermost first and left to
right through the arguments. -/
def Ty.collectOrigins (acc : List Origin) : Ty → List Origin
  | .i32 => acc
  | .unit => acc
  | .ref _ o target => target.collectOrigins (acc ++ [o])
  | .struct _ args => Arg.collectAll acc args

/-- The list `acc` followed by the origins of one argument. -/
def Arg.collectOrigins (acc : List Origin) : Arg → List Origin
  | .origin o => acc ++ [o]
  | .ty t => t.collectOrigins acc

/-- The list `acc` followed by the origins of a list of arguments. -/
def Arg.collectAll (acc : List Origin) : List Arg → List Origin
  | [] => acc
  | a :: args => Arg.collectAll (a.collectOrigins acc) args

end

/-- Every origin written in the type, in reading order and with repetitions. -/
def Ty.origins (t : Ty) : List Origin :=
  t.collectOrigins []

/-- The origin of the outermost reference; only a reference type has one. -/
def Ty.refOrigin? : Ty → Option Origin
  | .ref _ o _ => some o
  | _ => none

/-- Whether the type is a reference. -/
def Ty.isRef (t : Ty) : Bool :=
  t.refOrigin?.isSome

end OriginFacts
