import OriginFacts.Fault
import OriginFacts.Json.Printer

/-! Diagnostics: failures as they are shown to a reader or to a tool. -/

namespace OriginFacts

/-- The part of the work that failed: loading a program, or extracting its facts. -/
inductive Phase where
  | load
  | facts
deriving DecidableEq, Repr

def Phase.name : Phase → String
  | .load => "load"
  | .facts => "facts"

/-- A report of one failure, with notes that explain it. -/
structure Diagnostic where
  message : String
  phase : Option String := none
  severity : String := "error"
  code : Option String := none
  file : Option String := none
  notes : List String := []
deriving DecidableEq, Repr

/-- A failure before it is told which file it concerns. -/
structure Failure where
  phase : Option Phase
  code : String
  message : String
deriving DecidableEq, Repr

/-- The report of a failure. -/
def Failure.diagnostic (f : Failure) (file : Option String) : Diagnostic :=
  { message := f.message, phase := f.phase.map Phase.name, code := some f.code, file := file }

/-- The code of a fault. -/
def Fault.code : Fault → String
  | .unknownVariable .. => "UnknownVariableError"
  | .notAStruct .. => "NotAStructError"
  | .unknownStruct .. => "UnknownStructError"
  | .unknownField .. => "UnknownFieldError"
  | .genericArgument .. => "GenericArgumentError"
  | .nodeOverflow .. => "NodeNameOverflowError"
  | .nodeUnderflow .. => "IndexError"
  | .invalidSpan .. => "InvalidSpanError"

/-- A fault is found while facts are extracted. -/
def Fault.failure (f : Fault) : Failure :=
  ⟨some .facts, f.code, f.message⟩

namespace Diagnostic

/-- A text, or null. -/
def optionalText : Option String → Json
  | some s => .str s
  | none => .null

/-- The report for a tool. -/
def toJson (d : Diagnostic) : Json :=
  .object
    [("phase", optionalText d.phase),
     ("message", .str d.message),
     ("severity", .str d.severity),
     ("code", optionalText d.code),
     ("file", optionalText d.file),
     ("notes", .list (d.notes.map fun note => .str (.text note)))]

/-- A text, unless it is absent or empty. -/
def nonempty? (text : Option String) : Option String :=
  text.filter (!·.isEmpty)

/-- The report for a reader: file, severity and phase in front, one line for each note behind. -/
def render (d : Diagnostic) : String :=
  let file :=
    match nonempty? d.file with
    | some f => f ++ ": "
    | none => ""
  let phase := (nonempty? d.phase).getD "internal"
  file ++ d.severity ++ "[" ++ phase ++ "]: " ++ d.message ++
    String.join (d.notes.map ("\n  note: " ++ ·))

end Diagnostic

end OriginFacts
