import OriginFacts.Surface.Parse
import OriginFacts.Text.RawString

/-!
Drafts: programs put together piece by piece. Every statement comes with its line of source text,
and the source is laid out so that the span of a statement covers exactly its line.
-/

namespace OriginFacts

/-- A statement with its line of text, which is not yet part of a source. -/
structure DraftLine where
  text : String
  target : Option Place
  expr : Expr

/-- A line as it is given. Its string need not be a text. -/
structure GivenLine where
  string : RawString
  target : Option Place
  expr : Expr

/-- The line, if it has bytes. -/
def GivenLine.line (l : GivenLine) : Except EncodeFault DraftLine := do
  return ⟨← l.string.toText, l.target, l.expr⟩

/-- A program and its source so far. `offset` is the number of bytes of the source. -/
structure Draft where
  vars : List Binding := []
  structs : List StructDecl := []
  blocks : List Block := []
  source : String := ""
  offset : Nat := 0

/-- Why a piece of a draft is refused. -/
inductive DraftError where
  | access (error : AccessError)
  | form (error : Surface.Error)
  | unencodable (fault : EncodeFault)
deriving DecidableEq, Repr

def DraftError.message : DraftError → String
  | .access error => error.message
  | .form error => error.message
  | .unencodable fault => fault.message

/-- An access to the place that a text writes. The origin is any text, and is looked at before the
place. -/
def Expr.draftAccess (mode : AccessMode) (origin : Option Origin) (place : String) :
    Except DraftError Expr := do
  let kind ← (AccessKind.make mode origin).mapError .access
  let place ← (Surface.parsePlace place).mapError .form
  return .access kind place

/-- Declarations from names and the texts of their types. -/
def Binding.ofTexts (entries : List (String × String)) : Except Surface.Error (List Binding) :=
  entries.mapM fun (name, ty) => do
    return ⟨name, ← Surface.parseTy ty⟩

namespace Draft

def addVariable (d : Draft) (b : Binding) : Draft :=
  { d with vars := d.vars ++ [b] }

def addStruct (d : Draft) (decl : StructDecl) : Draft :=
  { d with structs := d.structs ++ [decl] }

/-- Declares a variable by the text of its type. -/
def declare (d : Draft) (name ty : String) : Except Surface.Error Draft := do
  return d.addVariable ⟨name, ← Surface.parseTy ty⟩

/-- Declares variables in order, up to the first whose type is refused. -/
def declareAll (d : Draft) : List (String × String) → Draft × Option Surface.Error
  | [] => (d, none)
  | (name, ty) :: entries =>
    match d.declare name ty with
    | .ok d => d.declareAll entries
    | .error error => (d, some error)

/-- Declares a struct by the texts of its slots and of the types of its fields. -/
def declareStruct (d : Draft) (name : String) (slots : List String)
    (fields : List (String × String)) : Except Surface.Error Draft := do
  let slots ← slots.mapM Surface.parseSlot
  let fields ← Binding.ofTexts fields
  return d.addStruct ⟨name, slots, fields⟩

/-- Lays out a line at the end of the source, with a line feed behind it. -/
def layLine (d : Draft) (line : DraftLine) : Draft × Statement :=
  let stop := d.offset + line.text.utf8ByteSize
  ({ d with source := d.source ++ line.text ++ "\n", offset := stop + 1 },
    ⟨line.target, line.expr, ⟨d.offset, stop⟩⟩)

/-- Lays out lines in order, up to the first that has no bytes. -/
def layLines (d : Draft) : List GivenLine → Draft × Except EncodeFault (List Statement)
  | [] => (d, .ok [])
  | given :: lines =>
    match given.line with
    | .error fault => (d, .error fault)
    | .ok line =>
      let (d, s) := d.layLine line
      let (d, rest) := d.layLines lines
      (d, rest.map (s :: ·))

/-- Adds a block and the lines of its statements. If it is refused, the lines that were laid out
stay in the source. -/
def addBlock (d : Draft) (name : String) (lines : List GivenLine) (successors : List String) :
    Draft × Option EncodeFault :=
  match d.layLines lines with
  | (d, .ok statements) => ({ d with blocks := d.blocks ++ [⟨name, statements, successors⟩] }, none)
  | (d, .error fault) => (d, some fault)

/-- The program so far. -/
def program (d : Draft) : Program :=
  ⟨d.vars, d.structs, d.blocks⟩

end Draft

end OriginFacts
