import OriginFacts.Facts.Basic

/-!
The control flow graph of a block: each statement flows into the next one, and the last node into
the first node of each successor. A block without statements has a node 0 to leave from.
-/

namespace OriginFacts

/-- The node that control leaves a block from. -/
def Block.exitIndex (b : Block) : Nat :=
  b.statements.length - 1

namespace Program

/-- The edge between two points. -/
def edge (p : Program) (naming : Naming) (source target : String × Nat) : Except Fault Edge := do
  let s ← p.nodeAt naming source.1 source.2
  let t ← p.nodeAt naming target.1 target.2
  return ⟨s, t⟩

/-- The edges of a block: those inside it in statement order, then one for each successor. The
exit is named even if nothing follows it. -/
def blockEdges (p : Program) (naming : Naming) (b : Block) : Except Fault (List Edge) := do
  let inner ← (List.range b.exitIndex).mapM fun i =>
    p.edge naming (b.name, i) (b.name, i + 1)
  let exit ← p.nodeAt naming b.name b.exitIndex
  let outer ← b.successors.mapM fun successor => do
    return ⟨exit, ← p.nodeAt naming successor 0⟩
  return inner ++ outer

end Program

end OriginFacts
