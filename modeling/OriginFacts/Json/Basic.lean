import OriginFacts.Keyed
import OriginFacts.Text.RawString

/-!
JSON values. Members of an object keep their order, and whole numbers are told apart from numbers
with a fraction or an exponent. Strings and keys need not be texts: an escape can write a surrogate
that stands alone.
-/

namespace OriginFacts

/-- A JSON value. Of a number that is not whole only the text is kept: nothing is computed with
it. -/
inductive Json where
  | null
  | bool (value : Bool)
  | int (value : Int)
  | float (text : String)
  | str (value : RawString)
  | list (items : List Json)
  | object (members : List (RawString × Json))

namespace Json

/-- The kinds of values. -/
inductive Kind where
  | null
  | bool
  | int
  | float
  | str
  | list
  | object
deriving DecidableEq, Repr

/-- The name of a kind in messages. -/
def Kind.name : Kind → String
  | .null => "NoneType"
  | .bool => "bool"
  | .int => "int"
  | .float => "float"
  | .str => "str"
  | .list => "list"
  | .object => "dict"

def kind : Json → Kind
  | .null => .null
  | .bool _ => .bool
  | .int _ => .int
  | .float _ => .float
  | .str _ => .str
  | .list _ => .list
  | .object _ => .object

/-- The members of an object, as they are listed. -/
abbrev Members := List (RawString × Json)

/-- The value of a key. -/
def Members.get? (members : Members) (key : String) : Option Json :=
  members.lookup (.text key)

/-- The value of a key of an object. -/
def get? (value : Json) (key : String) : Option Json :=
  match value with
  | .object members => Members.get? members key
  | _ => none

end Json

end OriginFacts
