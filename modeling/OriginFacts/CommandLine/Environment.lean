import OriginFacts.Node
import OriginFacts.Text.Integer

/-! What the environment of a run settles. -/

namespace OriginFacts.CommandLine

/-- The variables of the environment with their values. -/
abbrev Environment := List (String × String)

namespace Environment

/-- The scheme for naming nodes. -/
def naming (environment : Environment) : Naming :=
  Naming.ofEnvironment (environment.map (·.1))

/-- The variable that tells how wide the terminal is. -/
def columnsName : String := "COLUMNS"

/-- The columns of a terminal that tells nothing about its width. -/
def defaultColumns : Nat := 80

/-- The columns of the terminal. Only a positive number counts. -/
def columns (environment : Environment) : Nat :=
  match (environment.lookup columnsName).bind fun value => Text.integer? value.toList with
  | some n => if 0 < n then n.toNat else defaultColumns
  | none => defaultColumns

/-- The width of lines. Two columns stay free. -/
def lineWidth (environment : Environment) : Nat :=
  environment.columns - 2

/-- The names of the variables that a run looks at. -/
def names : List String :=
  [Naming.variableName, columnsName]

end Environment

end OriginFacts.CommandLine
