import OriginFacts.Place
import OriginFacts.Ty.Basic

/-! Expressions: accesses to places, calls and literals. -/

namespace OriginFacts

/-- The four ways to access a place. -/
inductive AccessMode where
  | borrow (mutability : Mutability)
  | copy
  | move
deriving DecidableEq, Repr

/-- How a place is accessed. A borrow, and nothing else, introduces an origin. -/
inductive AccessKind where
  | borrow (mutability : Mutability) (origin : Origin)
  | copy
  | move
deriving DecidableEq, Repr

/-- Why a mode and an optional origin make no access. -/
inductive AccessError where
  | missingOrigin (mode : AccessMode)
  | strayOrigin (mode : AccessMode)
deriving DecidableEq, Repr

/-- The name of a mode in messages. -/
def AccessMode.name : AccessMode → String
  | .borrow .shared => "BORROW"
  | .borrow .mutable => "BORROW_MUT"
  | .copy => "COPY"
  | .move => "MOVE"

/-- The mode of a name. -/
def AccessMode.ofName? (name : String) : Option AccessMode :=
  [AccessMode.borrow .shared, .borrow .mutable, .copy, .move].find? (·.name == name)

def AccessError.message : AccessError → String
  | .missingOrigin mode => mode.name ++ " access needs an origin"
  | .strayOrigin mode => mode.name ++ " access can't carry an origin"

namespace AccessKind

/-- The access of a mode: a borrow needs an origin, a copy or a move has none. -/
def make : AccessMode → Option Origin → Except AccessError AccessKind
  | .borrow m, some o => .ok (.borrow m o)
  | .copy, none => .ok .copy
  | .move, none => .ok .move
  | mode, none => .error (.missingOrigin mode)
  | mode, some _ => .error (.strayOrigin mode)

def mode : AccessKind → AccessMode
  | .borrow m _ => .borrow m
  | .copy => .copy
  | .move => .move

/-- The origin that the access introduces. -/
def origin? : AccessKind → Option Origin
  | .borrow _ o => some o
  | .copy => none
  | .move => none

def isBorrow (k : AccessKind) : Bool :=
  k.origin?.isSome

end AccessKind

/-- An expression. Calls nest; numbers are unbounded. -/
inductive Expr where
  | access (kind : AccessKind) (place : Place)
  | call (callee : String) (args : List Expr)
  | number (value : Int)
  | unit

end OriginFacts
