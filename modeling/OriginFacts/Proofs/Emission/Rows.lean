import OriginFacts.Proofs.Emission.Points
import OriginFacts.Proofs.Emission.Script

/-!
The rows that a program declares, point by point. Emission looks up nodes, texts and places; here
the answers to these lookups are given, and nothing can fail.
-/

namespace OriginFacts

/-- Answers to the lookups of an emission. -/
structure Answers where
  node : String → Nat → Node
  text : Span → String
  resolved : Place → Resolved

namespace Answers

variable (a : Answers)

def nodeOf (pt : Point) : Node :=
  a.node pt.block pt.index

def ty (place : Place) : Ty :=
  (a.resolved place).ty

def origins (place : Place) : List Origin :=
  (a.resolved place).origins

/-! ## Origins of a statement -/

/-- What an assignment writes over: the origins of its target. -/
def overwritten (s : Statement) : List Origin :=
  match s.target with
  | some place => a.origins place
  | none => []

/-- The origins that start over: those of the target, then those of every borrow. -/
def cleared (s : Statement) : List Origin :=
  a.overwritten s ++ s.expr.leaves.filterMap (·.kind.origin?)

/-- The origins in use: those of every place that is copied, moved or mutably borrowed. -/
def accessed (s : Statement) : List Origin :=
  (s.expr.leaves.filter (·.kind.usesPlace)).flatMap fun l => a.origins l.place

/-- The loans that an assignment ends: those of its target, unless it holds a reference. -/
def endedByTarget (p : Program) (s : Statement) : List Origin :=
  match s.target with
  | some place => if (a.ty place).isRef then [] else p.borrowsOf place
  | none => []

/-- The loans that end: those of the target, then those of every place that is mutably borrowed. -/
def ended (p : Program) (s : Statement) : List Origin :=
  a.endedByTarget p s ++
    (s.expr.leaves.filter (·.kind.writesPlace)).flatMap fun l => p.borrowsOf l.place

/-- The outermost origin of a value: the origin of a borrow, or that of the type of the place that
is copied or moved. Calls and literals have none. -/
def valueOrigin? : Expr → Option Origin
  | .access (.borrow _ o) _ => some o
  | .access _ place => (a.ty place).refOrigin?
  | _ => none

/-- The outermost origin of a value with that of the reference which it is assigned to. -/
def flow (target : Ty) (value : Expr) : List (Origin × Origin) :=
  match a.valueOrigin? value, target.refOrigin? with
  | some o, some into => [(o, into)]
  | _, _ => []

/-- The origins that flow into others: only an assignment relates some. -/
def related (s : Statement) : List (Origin × Origin) :=
  match s.target with
  | some place => a.flow (a.ty place) s.expr
  | none => []

/-! ## Rows -/

/-- The rows of a point in every relation but the edges. -/
def pointFacts (p : Program) (pt : Point) : Facts where
  accesses := Extraction.originsAt (a.nodeOf pt) (a.accessed pt.statement)
  clears := Extraction.originsAt (a.nodeOf pt) (a.cleared pt.statement)
  subsets := (a.related pt.statement).map fun (o, into) => ⟨o, into, a.nodeOf pt⟩
  invalidations := Extraction.originsAt (a.nodeOf pt) (a.ended p pt.statement)
  texts := [⟨a.text pt.statement.span, a.nodeOf pt⟩]

/-- The edges of a block: from each statement to the next one, then from the exit to the entry of
each successor. -/
def blockEdges (b : Block) : List Edge :=
  (List.range b.exitIndex).map (fun i => ⟨a.node b.name i, a.node b.name (i + 1)⟩) ++
    b.successors.map fun successor => ⟨a.node b.name b.exitIndex, a.node successor 0⟩

/-- The rows of a block: its edges and the rows of its points. -/
def blockFacts (p : Program) (b : Block) : Facts :=
  { edges := a.blockEdges b } ++ Facts.concat (b.points.map (a.pointFacts p))

/-- The rows of a program. -/
def facts (p : Program) : Facts :=
  Facts.concat (p.blocks.map (a.blockFacts p))

end Answers

end OriginFacts
