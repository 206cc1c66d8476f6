import OriginFacts.Facts.Basic
import OriginFacts.Text.Printable
import OriginFacts.Text.Quoted

/-!
The readable listing of a fact base: one entry for each node, ordered by name, with the facts of
the node, its text and its successors.
-/

namespace OriginFacts

/-- A node with its lines. -/
structure NodeGroup where
  node : Node
  lines : List String
deriving DecidableEq, Repr

namespace NodeGroup

/-- Adds lines to the group of a node, or a new group at its place in the order of names. -/
def insert (node : Node) (lines : List String) : List NodeGroup → List NodeGroup
  | [] => [⟨node, lines⟩]
  | g :: groups =>
    if node < g.node then ⟨node, lines⟩ :: g :: groups
    else if node = g.node then ⟨node, g.lines ++ lines⟩ :: groups
    else g :: insert node lines groups

/-- Adds entries from left to right. -/
def insertAll (groups : List NodeGroup) (entries : List (Node × List String)) : List NodeGroup :=
  entries.foldl (fun groups (node, lines) => insert node lines groups) groups

end NodeGroup

/-- A fact about an origin as a line. -/
def OriginAt.line (relation : Relation) (r : OriginAt) : String :=
  relation.name ++ "(" ++ r.origin ++ ")"

/-- A flow between origins as a line. -/
def Subset.line (r : Subset) : String :=
  Relation.introduceSubset.name ++ "(" ++ r.source ++ ", " ++ r.target ++ ")"

namespace Facts

/-- What the relations have to say about nodes, in the order of listing. An edge names its nodes
and says nothing more. -/
def entries (f : Facts) : List (Node × List String) :=
  f.edges.flatMap (fun e => [(e.source, []), (e.target, [])]) ++
  f.accesses.map (fun r => (r.node, [r.line .accessOrigin])) ++
  f.invalidations.map (fun r => (r.node, [r.line .invalidateOrigin])) ++
  f.clears.map (fun r => (r.node, [r.line .clearOrigin])) ++
  f.subsets.map (fun r => (r.node, [r.line]))

/-- The facts of each node: accesses, invalidations, clears and subsets. -/
def perNode (f : Facts) : List NodeGroup :=
  NodeGroup.insertAll [] f.entries

/-- The entry of a node. It ends with its successors, even if there are none. -/
def renderGroup (f : Facts) (g : NodeGroup) : String :=
  let text := String.ofList (Quoted.encode Text.isPrintable (f.textOf g.node).toList)
  g.node ++ ": " ++ text ++ " \x7b\n" ++
    String.join (g.lines.map fun line => "\t" ++ line ++ "\n") ++
    "\tgoto" ++ String.join ((f.successorsOf g.node).map (" " ++ ·)) ++ "\n\x7d\n"

/-- The listing, with an empty line between entries. -/
def render (f : Facts) : String :=
  "\n".intercalate (f.perNode.map f.renderGroup)

end Facts

end OriginFacts
