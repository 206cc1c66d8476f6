import OriginFacts.Document.Loader
import OriginFacts.Text.Utf8

/-! Documents kept in files. -/

namespace OriginFacts.Document

/-- Why a file holds no program. -/
inductive FileError where
  | undecodable (fault : Utf8.Fault)
  | notJson (file : String) (error : Json.ReadError)
  | longNumber (digits : Nat)
  | document (error : LoadError)
deriving DecidableEq, Repr

/-- A text that is no JSON is refused as such. A number that is too long is not. -/
def FileError.ofReadError (file : String) (error : Json.ReadError) : FileError :=
  match error.problem with
  | .longNumber digits => .longNumber digits
  | _ => .notJson file error

/-- The text of a file, with unified line ends. -/
def textOfBytes (bytes : ByteArray) : Except Utf8.Fault String :=
  (Utf8.decode bytes).map fun text => String.ofList (Text.unifyLineEnds text.toList)

/-- The program that the bytes of a file describe. -/
def loadBytes (file : String) (bytes : ByteArray) (override : Option RawString) :
    Except FileError (Program × String) := do
  let text ← (textOfBytes bytes).mapError .undecodable
  let doc ← (Json.read text).mapError (.ofReadError file)
  (load doc override).mapError .document

end OriginFacts.Document
