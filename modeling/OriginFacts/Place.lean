/-! Places: access paths rooted at a variable. -/

namespace OriginFacts

/-- A variable, dereferenced or not, followed by field names. The variable and its dereference
are different places. -/
structure Place where
  deref : Bool
  root : String
  fields : List String
deriving DecidableEq, Repr

namespace Place

/-- The place without its fields, in surface form. -/
def base (p : Place) : String :=
  if p.deref then "*" ++ p.root else p.root

/-- The variable behind a dereference; none for a plain variable. -/
def derefBase? (p : Place) : Option String :=
  if p.deref then some p.root else none

/-- The place whose base is written `base`: one leading star is the dereference. -/
def ofBase (base : String) (fields : List String) : Place :=
  match base.toList with
  | '*' :: root => ⟨true, String.ofList root, fields⟩
  | _ => ⟨false, base, fields⟩

/-- A place in surface form: `*p.f.g`. -/
def render (p : Place) : String :=
  p.fields.foldl (fun path field => path ++ "." ++ field) p.base

end Place

end OriginFacts
