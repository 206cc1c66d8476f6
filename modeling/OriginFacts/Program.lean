import OriginFacts.Expr
import OriginFacts.Span

/-! Programs: declarations and basic blocks of statements. -/

namespace OriginFacts

/-- A name with its declared type: a variable, or a field of a struct. -/
structure Binding where
  name : String
  ty : Ty

/-- The type that a list of declarations gives a name. The last declaration of a name counts. -/
def Binding.tyOf? (bindings : List Binding) (name : String) : Option Ty :=
  (bindings.reverse.find? (·.name == name)).map (·.ty)

/-- A generic slot of a struct declaration. -/
inductive GenericSlot where
  | origin (name : Origin)
  | ty (name : String)
deriving DecidableEq, Repr

def GenericSlot.name : GenericSlot → String
  | .origin name => name
  | .ty name => name

/-- A struct declaration with its generic slots and its fields. -/
structure StructDecl where
  name : String
  generics : List GenericSlot
  fields : List Binding

/-- The position of the first type slot of that name. -/
def StructDecl.tySlot? (decl : StructDecl) (name : String) : Option Nat :=
  decl.generics.findIdx? (· == .ty name)

/-- A statement: an expression, assigned to a place or evaluated for its effect, and the bytes of
the source that it covers. -/
structure Statement where
  target : Option Place
  expr : Expr
  span : Span

/-- A basic block. Successors are names, declared or not. -/
structure Block where
  name : String
  statements : List Statement
  successors : List String

/-- A whole program. Names may be declared more than once. -/
structure Program where
  vars : List Binding
  structs : List StructDecl
  blocks : List Block

/-- The declaration of a struct. The last one of a name counts. -/
def Program.struct? (p : Program) (name : String) : Option StructDecl :=
  p.structs.reverse.find? (·.name == name)

/-- The number of statements in a list of blocks. -/
def Block.statementCount (blocks : List Block) : Nat :=
  (blocks.flatMap (·.statements)).length

/-- The number of statements of a program. -/
def Program.statementCount (p : Program) : Nat :=
  Block.statementCount p.blocks

end OriginFacts
