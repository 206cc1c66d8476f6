import OriginFacts.Document.Statement

/-!
Loading: the program that a document describes. Types, places, origins and generic slots are texts
in surface form; statements and expressions are objects keyed by their kind.
-/

namespace OriginFacts.Document

/-- The declarations of an object: each key a name, each value its type. -/
def readBindings (path : Path) (members : Json.Members) : Except LoadError (List Binding) :=
  members.mapM fun (name, ty) => do
    let name ← nameOf path name
    return ⟨name, ← readTy (path.key name) ty⟩

/-- A struct declaration. -/
def readStruct (path : Path) (v : Json) : Except LoadError StructDecl := do
  let members ← expectObject path v
  let name ← expectName (path.key "name") (required members "name")
  let generics ← expectList (path.key "generics") (optional members "generics" (.list []))
  let fields ← expectObject (path.key "fields") (optional members "fields" (.object []))
  let slots ← readItems readSlot (path.key "generics") generics
  let bindings ← readBindings (path.key "fields") fields
  return ⟨name, slots, bindings⟩

/-- A block, with the end of the last statement so far. -/
def readBlock (source : ByteArray) (cursor : Nat) (path : Path) (v : Json) :
    Except LoadError (Block × Nat) := do
  let members ← expectObject path v
  let name ← expectName (path.key "name") (required members "name")
  let statements ← expectList (path.key "statements") (optional members "statements" (.list []))
  let successors ← expectList (path.key "successors") (optional members "successors" (.list []))
  let successors ← readItems expectName (path.key "successors") successors
  let (statements, cursor) ← readStatements source (path.key "statements") 0 cursor statements
  return (⟨name, statements, successors⟩, cursor)

/-- Blocks from the index `i` on. -/
def readBlocks (source : ByteArray) (path : Path) (i cursor : Nat) :
    List Json → Except LoadError (List Block)
  | [] => .ok []
  | item :: items => do
    let (b, cursor) ← readBlock source cursor (path.index i) item
    let rest ← readBlocks source path (i + 1) cursor items
    return b :: rest

/-- The program of a document and its source text, which `override` replaces if it is given. The
source is turned into bytes once the kinds of all parts are known, and before they are read. -/
def load (doc : Json) (override : Option RawString) : Except LoadError (Program × String) := do
  let root : Path := []
  let members ← expectObject root doc
  let source ←
    match override with
    | some source => pure source
    | none => expectString (root.key "source") (optional members "source" (.str ""))
  let vars ← expectObject (root.key "variables") (optional members "variables" (.object []))
  let structs ← expectList (root.key "structs") (optional members "structs" (.list []))
  let blocks ← expectList (root.key "blocks") (optional members "blocks" (.list []))
  let source ← encoded source
  let vars ← readBindings (root.key "variables") vars
  let structs ← readItems readStruct (root.key "structs") structs
  let blocks ← readBlocks source.toUTF8 (root.key "blocks") 0 0 blocks
  return (⟨vars, structs, blocks⟩, source)

end OriginFacts.Document
