import OriginFacts.Document.Value

/-! Expressions of a document: objects keyed by their kind. -/

namespace OriginFacts.Document

/-- The kinds of expressions whose keys are present. -/
def kindsOf (members : Json.Members) : List ExprKind :=
  ExprKind.all.filter fun kind => (members.get? kind.key).isSome

/-- An access of a kind to the place under a key. -/
def readAccess (path : Path) (members : Json.Members) (key : String) (kind : AccessKind) :
    Except LoadError Expr := do
  let place ← readPlace (path.key key) (required members key)
  return .access kind place

mutual

/-- An expression: an object with exactly one of the keys for expressions. A borrow reads its origin
before its place. -/
def readExpr (path : Path) : Json → Except LoadError Expr
  | .object members =>
    match kindsOf members with
    | [.borrow m] => do
      let some origin := Json.Members.get? members "origin"
        | .error (.malformed ⟨path, .missingOrigin (.borrow m)⟩)
      let o ← readOrigin (path.key "origin") origin
      readAccess path members (ExprKind.borrow m).key (.borrow m o)
    | [.copy] => readAccess path members ExprKind.copy.key .copy
    | [.move] => readAccess path members ExprKind.move.key .move
    | [.call] => do
      let callee ← expectName (path.key "call") (required members "call")
      let args ← readArgsMember (path.key "args") members
      return .call callee args
    | [.number] =>
      match Json.Members.get? members "number" with
      | some (.int n) => .ok (.number n)
      | _ => .error (.malformed ⟨path.key "number", .notInteger⟩)
    | [.unit] => .ok .unit
    | _ => .error (.malformed ⟨path, .notOneKind⟩)
  | v => .error (.malformed ⟨path, .wrongKind .object v.kind⟩)

/-- The arguments of a call, under the first key `args`; without the key there are none. -/
def readArgsMember (path : Path) : List (RawString × Json) → Except LoadError (List Expr)
  | [] => .ok []
  | (key, value) :: members =>
    if key = .text "args" then
      match value with
      | .list items => readArgs path 0 items
      | v => .error (.malformed ⟨path, .wrongKind .list v.kind⟩)
    else readArgsMember path members

/-- The arguments of a call from the index `i` on. -/
def readArgs (path : Path) (i : Nat) : List Json → Except LoadError (List Expr)
  | [] => .ok []
  | item :: items => do
    let e ← readExpr (path.index i) item
    let es ← readArgs path (i + 1) items
    return e :: es

end

end OriginFacts.Document
