import OriginFacts.Document.Error

/-! Values of a document by kind and by form. -/

namespace OriginFacts.Document

/-! ## Values of a kind -/

def expectObject (path : Path) : Json → Except LoadError Json.Members
  | .object members => .ok members
  | v => .error (.malformed ⟨path, .wrongKind .object v.kind⟩)

def expectList (path : Path) : Json → Except LoadError (List Json)
  | .list items => .ok items
  | v => .error (.malformed ⟨path, .wrongKind .list v.kind⟩)

def expectString (path : Path) : Json → Except LoadError RawString
  | .str s => .ok s
  | v => .error (.malformed ⟨path, .wrongKind .str v.kind⟩)

/-- A member that has to be there: a missing one counts as null. -/
def required (members : Json.Members) (key : String) : Json :=
  (members.get? key).getD .null

/-- A member that may be left out. -/
def optional (members : Json.Members) (key : String) (default : Json) : Json :=
  (members.get? key).getD default

/-- Reads items in order, each with its index in the path. -/
def readItems {α : Type} (read : Path → Json → Except LoadError α) (path : Path)
    (items : List Json) : Except LoadError (List α) :=
  items.zipIdx.mapM fun (item, i) => read (path.index i) item

/-- Says where a cause was found. -/
def atPath {α : Type} (path : Path) (result : Except Cause α) : Except LoadError α :=
  result.mapError fun cause => .malformed ⟨path, cause⟩

/-! ## Texts -/

/-- A string whose bytes are asked for. -/
def encoded (s : RawString) : Except LoadError String :=
  s.toText.mapError .unencodable

/-- A string that is to be a name. -/
def nameOf (path : Path) : RawString → Except LoadError String
  | .text name => .ok name
  | .lone _ => .error (.foreign path)

def expectName (path : Path) (v : Json) : Except LoadError String := do
  nameOf path (← expectString path v)

/-- A text in surface form. -/
def readForm {α : Type} (parse : String → Except Surface.Error α) (path : Path) :
    Json → Except LoadError α
  | .str (.text text) => atPath path ((parse text).mapError .badForm)
  | .str (.lone _) => .error (.foreign path)
  | v => .error (.malformed ⟨path, .notText v.kind⟩)

def readTy : Path → Json → Except LoadError Ty :=
  readForm Surface.parseTy

def readPlace : Path → Json → Except LoadError Place :=
  readForm Surface.parsePlace

def readOrigin : Path → Json → Except LoadError Origin :=
  readForm Surface.parseOrigin

def readSlot : Path → Json → Except LoadError GenericSlot :=
  readForm Surface.parseSlot

end OriginFacts.Document
