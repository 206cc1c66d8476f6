import OriginFacts.Node

/-!
The fact base: six relations between origins, nodes and texts. Rows keep the order in which they
were added, and repeated rows stay.
-/

namespace OriginFacts

/-- An origin at a node: accessed, cleared or invalidated there. -/
structure OriginAt where
  origin : Origin
  node : Node
deriving DecidableEq, Repr

/-- A step of the control flow graph. -/
structure Edge where
  source : Node
  target : Node
deriving DecidableEq, Repr

/-- An origin that flows into another one at a node. -/
structure Subset where
  source : Origin
  target : Origin
  node : Node
deriving DecidableEq, Repr

/-- The text of the statement at a node. -/
structure NodeText where
  text : String
  node : Node
deriving DecidableEq, Repr

/-- The six relations. -/
structure Facts where
  accesses : List OriginAt := []
  edges : List Edge := []
  clears : List OriginAt := []
  subsets : List Subset := []
  invalidations : List OriginAt := []
  texts : List NodeText := []
deriving DecidableEq, Repr

/-- The names of the relations, in the order in which they are listed. -/
inductive Relation where
  | accessOrigin
  | cfgEdge
  | clearOrigin
  | introduceSubset
  | invalidateOrigin
  | nodeText
deriving DecidableEq, Repr

namespace Relation

def all : List Relation :=
  [accessOrigin, cfgEdge, clearOrigin, introduceSubset, invalidateOrigin, nodeText]

def name : Relation → String
  | accessOrigin => "access_origin"
  | cfgEdge => "cfg_edge"
  | clearOrigin => "clear_origin"
  | introduceSubset => "introduce_subset"
  | invalidateOrigin => "invalidate_origin"
  | nodeText => "node_text"

/-- The relation of a name; any other name is handed back. -/
def ofName (name : String) : Except String Relation :=
  match all.find? (·.name == name) with
  | some relation => .ok relation
  | none => .error name

/-- The message about a name that no relation has. -/
def unknownMessage (name : String) : String :=
  "unknown fact relation " ++ Literal.render name

end Relation

/-! ## Columns of a row -/

def OriginAt.columns (r : OriginAt) : List String := [r.origin, r.node]

def Edge.columns (r : Edge) : List String := [r.source, r.target]

def Subset.columns (r : Subset) : List String := [r.source, r.target, r.node]

def NodeText.columns (r : NodeText) : List String := [r.text, r.node]

namespace Facts

/-- Adds rows behind those of each relation. -/
protected def append (f g : Facts) : Facts where
  accesses := f.accesses ++ g.accesses
  edges := f.edges ++ g.edges
  clears := f.clears ++ g.clears
  subsets := f.subsets ++ g.subsets
  invalidations := f.invalidations ++ g.invalidations
  texts := f.texts ++ g.texts

instance : Append Facts := ⟨Facts.append⟩

/-- The rows of a relation, column by column. -/
def rows (f : Facts) : Relation → List (List String)
  | .accessOrigin => f.accesses.map OriginAt.columns
  | .cfgEdge => f.edges.map Edge.columns
  | .clearOrigin => f.clears.map OriginAt.columns
  | .introduceSubset => f.subsets.map Subset.columns
  | .invalidateOrigin => f.invalidations.map OriginAt.columns
  | .nodeText => f.texts.map NodeText.columns

/-- The single row of a relation with these columns, if their number fits. -/
def ofRow? : Relation → List String → Option Facts
  | .accessOrigin, [o, n] => some { accesses := [⟨o, n⟩] }
  | .cfgEdge, [m, n] => some { edges := [⟨m, n⟩] }
  | .clearOrigin, [o, n] => some { clears := [⟨o, n⟩] }
  | .introduceSubset, [o, t, n] => some { subsets := [⟨o, t, n⟩] }
  | .invalidateOrigin, [o, n] => some { invalidations := [⟨o, n⟩] }
  | .nodeText, [t, n] => some { texts := [⟨t, n⟩] }
  | _, _ => none

/-- The number of rows of each relation. -/
def counts (f : Facts) : List (Relation × Nat) :=
  Relation.all.map fun r => (r, (f.rows r).length)

/-- The targets of the edges that leave a node, in order and with repetitions. -/
def successorsOf (f : Facts) (node : Node) : List Node :=
  (f.edges.filter (·.source == node)).map (·.target)

/-- What stands for the text of a node without a statement. -/
def passText : String := "(pass)"

/-- The first text recorded for a node. -/
def textOf (f : Facts) (node : Node) : String :=
  ((f.texts.find? (·.node == node)).map (·.text)).getD passText

end Facts

end OriginFacts
