import OriginFacts.Document.Expr
import OriginFacts.Document.Position

/-! Statements of a document. -/

namespace OriginFacts.Document

/-- The span of a statement. Given offsets come before a text; the bytes of a text are looked up from
the end of the statement before, `cursor`. -/
def readSpan (source : ByteArray) (cursor : Nat) (path : Path) (members : Json.Members) :
    Except LoadError Span :=
  match members.get? "span", members.get? "text" with
  | some span, _ => do
    match ← expectList (path.key "span") span with
    | [.int start, .int stop] => atPath (path.key "span") (checkOffsets source start stop)
    | _ => .error (.malformed ⟨path.key "span", .notOffsets⟩)
  | none, some text => do
    let text ← encoded (← expectString (path.key "text") text)
    atPath (path.key "text") (locateText source cursor text)
  | none, none => .error (.malformed ⟨path, .missingPosition⟩)

/-- A statement. -/
def readStatement (source : ByteArray) (cursor : Nat) (path : Path) (v : Json) :
    Except LoadError Statement := do
  let members ← expectObject path v
  let some expr := members.get? "expr" | .error (.malformed ⟨path, .missingExpr⟩)
  let e ← readExpr (path.key "expr") expr
  let span ← readSpan source cursor path members
  match members.get? "assign" with
  | some place =>
    let target ← readPlace (path.key "assign") place
    return ⟨some target, e, span⟩
  | none => return ⟨none, e, span⟩

/-- Statements from the index `i` on, with the end of the last one. -/
def readStatements (source : ByteArray) (path : Path) (i cursor : Nat) :
    List Json → Except LoadError (List Statement × Nat)
  | [] => .ok ([], cursor)
  | item :: items => do
    let s ← readStatement source cursor (path.index i) item
    let (rest, cursor) ← readStatements source path (i + 1) s.span.stop.toNat items
    return (s :: rest, cursor)

end OriginFacts.Document
