import OriginFacts.Proofs.Emission.Rows
import OriginFacts.Proofs.Lookup

/-!
The script of each part of an emission. Checks stand where emission looks something up, and the
steps behind them add the rows for the answers. Behind a failed check the answers are arbitrary, as
nothing is added there any more.
-/

namespace OriginFacts.Extraction

variable {x : Extraction}

/-- The answers that the extraction itself gives; arbitrary where a lookup fails. -/
def answers (x : Extraction) : Answers where
  node block i := (x.program.nodeAt x.naming block i).toOption.getD ""
  text span := (span.textIn x.source).toOption.getD ""
  resolved place := (x.program.resolve place).toOption.getD ⟨.unit, []⟩

theorem answers_node {block : String} {i : Nat} {node : Node}
    (h : x.program.nodeAt x.naming block i = .ok node) : x.answers.node block i = node := by
  simp [answers, h, Except.toOption]

theorem answers_text {span : Span} {text : String} (h : span.textIn x.source = .ok text) :
    x.answers.text span = text := by
  simp [answers, h, Except.toOption]

theorem answers_resolved {place : Place} {r : Resolved} (h : x.program.resolve place = .ok r) :
    x.answers.resolved place = r := by
  simp [answers, h, Except.toOption]

theorem answers_origins {place : Place} {r : Resolved} (h : x.program.resolve place = .ok r) :
    x.answers.origins place = r.origins := by
  rw [Answers.origins, answers_resolved h]

theorem answers_ty {place : Place} {r : Resolved} (h : x.program.resolve place = .ok r) :
    x.answers.ty place = r.ty := by
  rw [Answers.ty, answers_resolved h]

/-! ## Edges -/

theorem edge_eq_ok_iff {p : Program} {naming : Naming} {source target : String × Nat} {e : Edge} :
    p.edge naming source target = .ok e ↔
      p.nodeAt naming source.1 source.2 = .ok e.source ∧
        p.nodeAt naming target.1 target.2 = .ok e.target := by
  simp only [Program.edge, bind_eq_ok_iff, pure_eq_ok_iff]
  constructor
  · rintro ⟨s, hs, t, ht, rfl⟩
    exact ⟨hs, ht⟩
  · rintro ⟨hs, ht⟩
    exact ⟨_, hs, _, ht, rfl⟩

theorem innerEdges_eq_ok_iff {block : String} {n : Nat} {edges : List Edge} :
    ((List.range n).mapM fun i => x.program.edge x.naming (block, i) (block, i + 1)) = .ok edges ↔
      (∀ i < n, x.program.nodeAt x.naming block i = .ok (x.answers.node block i) ∧
        x.program.nodeAt x.naming block (i + 1 : Nat) = .ok (x.answers.node block (i + 1))) ∧
        edges = (List.range n).map fun i => ⟨x.answers.node block i, x.answers.node block (i + 1)⟩ := by
  rw [mapM_eq_ok_iff_of_answer fun i => ⟨x.answers.node block i, x.answers.node block (i + 1)⟩]
  · simp only [List.mem_range, edge_eq_ok_iff]
  · intro i e h
    obtain ⟨hs, ht⟩ := edge_eq_ok_iff.mp h
    rw [answers_node hs, answers_node ht]

theorem outerEdges_eq_ok_iff {exit : Node} {successors : List String} {edges : List Edge} :
    (successors.mapM fun successor => do
        return (⟨exit, ← x.program.nodeAt x.naming successor 0⟩ : Edge)) = .ok edges ↔
      (∀ successor ∈ successors,
        x.program.nodeAt x.naming successor 0 = .ok (x.answers.node successor 0)) ∧
        edges = successors.map fun successor => ⟨exit, x.answers.node successor 0⟩ := by
  rw [mapM_eq_ok_iff_of_answer fun successor => ⟨exit, x.answers.node successor 0⟩]
  · simp only [bind_eq_ok_iff, pure_eq_ok_iff, Edge.mk.injEq, true_and, exists_eq_right]
  · intro successor e h
    obtain ⟨node, hnode, he⟩ := bind_eq_ok_iff.mp h
    rw [← pure_eq_ok_iff.mp he, answers_node (i := 0) hnode]

/-- The edges of a block can be named if all its points and the entries of its successors can. -/
theorem blockEdges_eq_ok_iff {b : Block} {edges : List Edge} :
    x.program.blockEdges x.naming b = .ok edges ↔
      (∀ i ≤ b.exitIndex, x.program.nodeAt x.naming b.name i = .ok (x.answers.node b.name i)) ∧
        (∀ successor ∈ b.successors,
          x.program.nodeAt x.naming successor 0 = .ok (x.answers.node successor 0)) ∧
        edges = x.answers.blockEdges b := by
  simp only [Program.blockEdges, bind_eq_ok_iff, pure_eq_ok_iff, innerEdges_eq_ok_iff,
    outerEdges_eq_ok_iff]
  constructor
  · rintro ⟨inner, ⟨hinner, rfl⟩, exit, hexit, outer, ⟨houter, rfl⟩, rfl⟩
    have hexit' := answers_node hexit
    refine ⟨?_, houter, by rw [Answers.blockEdges, hexit']⟩
    intro i hi
    rcases Nat.lt_or_eq_of_le hi with hlt | rfl
    · exact (hinner i hlt).1
    · rw [hexit', hexit]
  · rintro ⟨hnodes, houter, rfl⟩
    refine ⟨_, ⟨?_, rfl⟩, _, hnodes _ (Nat.le_refl _), _, ⟨houter, rfl⟩, rfl⟩
    intro i hi
    exact ⟨hnodes i (Nat.le_of_lt hi), hnodes (i + 1) hi⟩

/-! ## Expressions -/

/-- The steps of using a place: it has to resolve, and its origins are accessed. -/
def accessScript (x : Extraction) (node : Node) (place : Place) : Script :=
  [.check (x.program.resolve place), .ok { accesses := originsAt node (x.answers.origins place) }]

/-- The steps of ending the loans of a place. -/
def invalidateScript (x : Extraction) (node : Node) (place : Place) : Script :=
  [.ok { invalidations := originsAt node (x.program.borrowsOf place) }]

/-- The steps of one access. -/
def leafScript (x : Extraction) (node : Node) (l : Leaf) : Script :=
  match l.kind with
  | .borrow .shared o => [.ok { clears := [⟨o, node⟩] }]
  | .borrow .mutable o =>
    [.ok { clears := [⟨o, node⟩] }] ++ (x.accessScript node l.place ++ x.invalidateScript node l.place)
  | .copy => x.accessScript node l.place
  | .move => x.accessScript node l.place

/-- The steps of an expression are those of its leaves. -/
def exprScript (x : Extraction) (node : Node) (e : Expr) : Script :=
  e.leaves.flatMap (x.leafScript node)

theorem follows_access (node : Node) (place : Place) :
    Follows (x.access node place) (x.accessScript node place) := by
  refine Follows.require fun r hr => ?_
  rw [answers_origins hr]
  exact Follows.add _

theorem follows_invalidate (node : Node) (place : Place) :
    Follows (x.invalidate node place) (x.invalidateScript node place) := by
  rw [invalidateScript, ← Program.loansOf_map_origin]
  exact Follows.add _

mutual

theorem follows_emitExpr (node : Node) : (e : Expr) → Follows (x.emitExpr node e) (x.exprScript node e)
  | .access (.borrow .shared o) place => by
      simp only [emitExpr, exprScript, Expr.leaves, List.flatMap_singleton, leafScript]
      exact Follows.add _
  | .access (.borrow .mutable o) place => by
      simp only [emitExpr, exprScript, Expr.leaves, List.flatMap_singleton, leafScript]
      exact (Follows.add _).bind ((follows_access node place).bind (follows_invalidate node place))
  | .access .copy place => by
      simp only [emitExpr, exprScript, Expr.leaves, List.flatMap_singleton, leafScript]
      exact follows_access node place
  | .access .move place => by
      simp only [emitExpr, exprScript, Expr.leaves, List.flatMap_singleton, leafScript]
      exact follows_access node place
  | .call _ args => by
      simp only [emitExpr, exprScript, Expr.leaves]
      exact follows_emitArgs node args
  | .number _ => by
      simp only [emitExpr, exprScript, Expr.leaves]
      exact Follows.pure
  | .unit => by
      simp only [emitExpr, exprScript, Expr.leaves]
      exact Follows.pure

theorem follows_emitArgs (node : Node) :
    (es : List Expr) → Follows (x.emitArgs node es) ((Expr.leavesOf es).flatMap (x.leafScript node))
  | [] => by
      simp only [emitArgs, Expr.leavesOf]
      exact Follows.pure
  | e :: es => by
      simp only [emitArgs, Expr.leavesOf, List.flatMap_append]
      exact (follows_emitExpr node e).bind (follows_emitArgs node es)

end

/-! ## Statements -/

/-- The steps of relating a value to the target that it is assigned to. A place that is copied or
moved is resolved once more. -/
def subsetScript (x : Extraction) (node : Node) (target : Ty) (value : Expr) : Script :=
  match target.refOrigin?, value with
  | some into, .access kind place =>
    (if kind.isBorrow then [] else [.check (x.program.resolve place)]) ++
      (x.answers.valueOrigin? value).toList.map fun o => .ok { subsets := [⟨o, into, node⟩] }
  | _, _ => []

/-- The steps of an assignment. -/
def assignScript (x : Extraction) (node : Node) (place : Place) (value : Expr) : Script :=
  [.check (x.program.resolve place), .ok { clears := originsAt node (x.answers.origins place) }] ++
    ((if (x.answers.ty place).isRef then [] else x.invalidateScript node place) ++
      (x.exprScript node value ++ x.subsetScript node (x.answers.ty place) value))

/-- The steps of a statement: its text first. -/
def statementScript (x : Extraction) (node : Node) (s : Statement) : Script :=
  [.check (s.span.textIn x.source), .ok { texts := [⟨x.answers.text s.span, node⟩] }] ++
    match s.target with
    | some place => x.assignScript node place s.expr
    | none => x.exprScript node s.expr

theorem follows_emitSubset (node : Node) (target : Ty) (value : Expr) :
    Follows (x.emitSubset node target value) (x.subsetScript node target value) := by
  unfold emitSubset subsetScript
  cases htarget : target.refOrigin? with
  | none => exact Follows.pure
  | some into =>
      -- A copy and a move resolve their place again, and are related by its type.
      have hread : ∀ place (relate : Resolved → Emit Unit),
          (∀ r, relate r =
            r.ty.refOrigin?.elim (Pure.pure ()) fun o => add { subsets := [⟨o, into, node⟩] }) →
          Follows (require (x.program.resolve place) >>= relate)
            (.check (x.program.resolve place) ::
              (x.answers.ty place).refOrigin?.toList.map fun o =>
                .ok { subsets := [⟨o, into, node⟩] }) := by
        intro place relate hrelate
        refine Follows.require fun r hr => ?_
        rw [answers_ty hr, hrelate]
        cases r.ty.refOrigin? with
        | none => exact Follows.pure
        | some o => exact Follows.add _
      rcases value with ⟨⟨m, o⟩ | _ | _, place⟩ | _ | _ | _
      · exact Follows.add _
      · exact hread place _ fun r => by cases r.ty.refOrigin? <;> rfl
      · exact hread place _ fun r => by cases r.ty.refOrigin? <;> rfl
      · exact Follows.pure
      · exact Follows.pure
      · exact Follows.pure

theorem follows_emitAssign (node : Node) (place : Place) (value : Expr) :
    Follows (x.emitAssign node place value) (x.assignScript node place value) := by
  refine Follows.require fun target htarget => ?_
  rw [answers_origins htarget, answers_ty htarget]
  have hvalue : Follows (x.emitExpr node value >>= fun _ => x.emitSubset node target.ty value)
      (x.exprScript node value ++ x.subsetScript node target.ty value) :=
    (follows_emitExpr node value).bind (follows_emitSubset node target.ty value)
  refine (Follows.add _).bind ?_
  cases target.ty.isRef with
  | true => exact hvalue
  | false => exact (follows_invalidate node place).bind hvalue

theorem follows_emitStatement (node : Node) (s : Statement) :
    Follows (x.emitStatement node s) (x.statementScript node s) := by
  refine Follows.require fun text htext => ?_
  rw [answers_text htext]
  refine (Follows.add _).bind ?_
  cases s.target with
  | none => exact follows_emitExpr node s.expr
  | some place => exact follows_emitAssign node place s.expr

/-! ## Points, blocks and the program -/

/-- The steps of a point: it has to have a node. -/
def pointScript (x : Extraction) (pt : Point) : Script :=
  .check (x.program.nodeAt x.naming pt.block pt.index) ::
    x.statementScript (x.answers.nodeOf pt) pt.statement

/-- The steps of a block: its edges, then its points. -/
def blockScript (x : Extraction) (b : Block) : Script :=
  [.check (x.program.blockEdges x.naming b), .ok { edges := x.answers.blockEdges b }] ++
    b.points.flatMap x.pointScript

/-- The steps of the whole program. -/
def script (x : Extraction) : Script :=
  x.program.blocks.flatMap x.blockScript

theorem follows_emitStatements (block : String) (i : Nat) (ss : List Statement) :
    Follows (x.emitStatements block i ss)
      ((ss.zipIdx i).flatMap fun (s, i) => x.pointScript ⟨block, i, s⟩) := by
  induction ss generalizing i with
  | nil => exact Follows.pure
  | cons s ss ih =>
      refine Follows.require fun node hnode => ?_
      rw [Answers.nodeOf, answers_node hnode]
      exact (follows_emitStatement node s).bind (ih (i + 1))

theorem follows_emitBlock (b : Block) : Follows (x.emitBlock b) (x.blockScript b) := by
  refine Follows.require fun edges hedges => ?_
  obtain ⟨_, _, rfl⟩ := blockEdges_eq_ok_iff.mp hedges
  refine (Follows.add _).bind ?_
  rw [Block.points, List.flatMap_map]
  exact follows_emitStatements b.name 0 b.statements

theorem follows_emitBlocks (bs : List Block) : Follows (x.emitBlocks bs) (bs.flatMap x.blockScript) := by
  induction bs with
  | nil => exact Follows.pure
  | cons b bs ih => exact (follows_emitBlock b).bind ih

/-- Emission follows the script of the program. -/
theorem facts_eq_script (x : Extraction) : x.facts = x.script.outcome.map fun _ => x.script.allRows :=
  facts_of_follows (follows_emitBlocks x.program.blocks)

end OriginFacts.Extraction
