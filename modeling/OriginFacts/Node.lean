import OriginFacts.Program
import OriginFacts.Text.Literal

/-! Names of the points of the control flow graph. -/

namespace OriginFacts

/-- The name of a point. -/
abbrev Node := String

/-- How points are named: `block[index]`, or one letter per statement of the program. -/
inductive Naming where
  | verbose
  | letters
deriving DecidableEq, Repr

namespace Naming

/-- The name of the scheme itself. -/
def name : Naming → String
  | .verbose => "verbose"
  | .letters => "compact-letters"

/-- The scheme of a name; any other name is handed back. -/
def ofName (name : String) : Except String Naming :=
  match [verbose, letters].find? (·.name == name) with
  | some naming => .ok naming
  | none => .error name

/-- The message about a name that no scheme has. -/
def unknownMessage (name : String) : String :=
  Literal.render name ++ " is not a valid NamingScheme"

/-- The variable whose presence selects letters. -/
def variableName : String := "SIMPLE_NODES"

/-- The scheme that an environment with these variables selects. -/
def ofEnvironment (names : List String) : Naming :=
  if names.contains variableName then .letters else .verbose

end Naming

/-- The alphabet of the short names. -/
def Node.alphabet : List Char :=
  ['a', 'b', 'c', 'd', 'e', 'f', 'g', 'h', 'i', 'j', 'k', 'l', 'm',
   'n', 'o', 'p', 'q', 'r', 's', 't', 'u', 'v', 'w', 'x', 'y', 'z']

/-- The letter at an index; a negative index counts back from the end of the alphabet. -/
def Node.letter? (index : Int) : Option Char :=
  if 0 ≤ index then Node.alphabet[index.toNat]?
  else if -26 ≤ index then Node.alphabet[(26 + index).toNat]?
  else none

/-- The name `block[index]`. -/
def Node.verbose (block : String) (index : Int) : Node :=
  block ++ "[" ++ toString index ++ "]"

namespace Program

/-- The number of statements before the first block of that name; for a name without a block, all
statements. -/
def statementsBefore (p : Program) (block : String) : Nat :=
  Block.statementCount (p.blocks.takeWhile (·.name != block))

/-- The node of the statement `index` of a block. Letters count statements through the whole
program and end with the alphabet. -/
def nodeAt (p : Program) (naming : Naming) (block : String) (index : Int) : Except Fault Node :=
  match naming with
  | .verbose => .ok (Node.verbose block index)
  | .letters =>
    let position := p.statementsBefore block + index
    if 26 ≤ position then .error (.nodeOverflow position (Node.verbose block index))
    else
      match Node.letter? position with
      | some letter => .ok (String.singleton letter)
      | none => .error (.nodeUnderflow position)

end Program

end OriginFacts
