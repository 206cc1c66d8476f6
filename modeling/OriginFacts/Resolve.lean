import OriginFacts.Program

/-! The type of a place, and the origins met on the way to it. -/

namespace OriginFacts

/-- What a place resolves to: its type, and the origins of every type from the variable down to
the place itself. -/
structure Resolved where
  ty : Ty
  origins : List Origin

namespace Program

/-- The type of a field of `parent`. A field declared with the name of a generic type slot takes
the actual argument at the slot's position. -/
def fieldTy (p : Program) (parent : Ty) (field : String) : Except Fault Ty :=
  match parent with
  | .struct name args =>
    match p.struct? name with
    | none => .error (.unknownStruct name field)
    | some decl =>
      match Binding.tyOf? decl.fields field with
      | none => .error (.unknownField decl.name field)
      | some (.struct slot slotArgs) =>
        match decl.tySlot? slot with
        | none => .ok (.struct slot slotArgs)
        | some i =>
          match args[i]? with
          | some (.ty actual) => .ok actual
          | actual => .error (.genericArgument decl.name slot i actual)
      | some declared => .ok declared
  | ty => .error (.notAStruct ty field)

/-- Follows fields from a type, adding the origins of each type that is reached. -/
def walk (p : Program) (ty : Ty) (origins : List Origin) : List String → Except Fault Resolved
  | [] => .ok ⟨ty, ty.collectOrigins origins⟩
  | field :: fields =>
    match p.fieldTy ty field with
    | .ok next => p.walk next (ty.collectOrigins origins) fields
    | .error fault => .error fault

/-- The type and the origins of a place. -/
def resolve (p : Program) (place : Place) : Except Fault Resolved :=
  match Binding.tyOf? p.vars place.root with
  | some ty => p.walk ty [] place.fields
  | none => .error (.unknownVariable place.root (some place.render))

end Program

end OriginFacts
