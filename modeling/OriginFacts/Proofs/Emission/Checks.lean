import OriginFacts.Proofs.Emission.Steps

/-!
Where an emission fails. Of its steps only the lookups can fail, and of these only some can be the
first one to do so: the edges of a block, and for each statement its span, its target and the places
that its expression uses. A node is named again after the edges, and a copied or moved place is
resolved again after its access; neither adds a cause of failure.
-/

namespace OriginFacts.Extraction

variable {x : Extraction}

/-- The lookups of a statement: its span, its target, then the places in use from left to right. -/
def statementChecks (x : Extraction) (s : Statement) : Script :=
  [.check (s.span.textIn x.source)] ++
    (s.target.toList.map fun place => .check (x.program.resolve place)) ++
    (s.expr.leaves.filter (·.kind.usesPlace)).map fun l => .check (x.program.resolve l.place)

/-- The lookups of a block: its edges, then those of its statements. -/
def blockChecks (x : Extraction) (b : Block) : Script :=
  .check (x.program.blockEdges x.naming b) :: b.statements.flatMap x.statementChecks

/-- A statement that emission gets through: its span has a text, its target resolves, and so does
every place that its expression copies, moves or mutably borrows, at any depth of calls. -/
structure Admits (x : Extraction) (s : Statement) : Prop where
  span : ∃ text, s.span.textIn x.source = .ok text
  target : ∀ place, s.target = some place → ∃ r, x.program.resolve place = .ok r
  leaf : ∀ l ∈ s.expr.leaves, l.kind.usesPlace = true → ∃ r, x.program.resolve l.place = .ok r

theorem admits_iff {s : Statement} : x.Admits s ↔ (x.statementChecks s).firstFault = none := by
  simp only [statementChecks, Script.firstFault_append, Option.or_eq_none_iff]
  have hspan : Script.firstFault [.check (s.span.textIn x.source)] = none ↔
      ∃ text, s.span.textIn x.source = .ok text := by
    simp [Step.fault?_check_eq_none_iff]
  have htarget : Script.firstFault (s.target.toList.map fun place =>
      .check (x.program.resolve place)) = none ↔
        ∀ place, s.target = some place → ∃ r, x.program.resolve place = .ok r := by
    cases s.target <;> simp [Step.fault?_check_eq_none_iff]
  have hleaf : Script.firstFault ((s.expr.leaves.filter (·.kind.usesPlace)).map fun l =>
      .check (x.program.resolve l.place)) = none ↔
        ∀ l ∈ s.expr.leaves, l.kind.usesPlace = true → ∃ r, x.program.resolve l.place = .ok r := by
    simp only [Script.firstFault_eq_none_iff, List.forall_mem_map, List.mem_filter, and_imp,
      Step.fault?_check_eq_none_iff]
  rw [hspan, htarget, hleaf]
  exact ⟨fun h => ⟨⟨h.span, h.target⟩, h.leaf⟩, fun h => ⟨h.1.1, h.1.2, h.2⟩⟩

theorem firstFault_leafScript (node : Node) (l : Leaf) :
    (x.leafScript node l).firstFault =
      Script.firstFault (if l.kind.usesPlace then [.check (x.program.resolve l.place)] else []) := by
  rcases l with ⟨⟨_ | _, o⟩ | _ | _, place⟩ <;>
    simp [leafScript, accessScript, invalidateScript, AccessKind.usesPlace]

theorem firstFault_exprScript (node : Node) (e : Expr) :
    (x.exprScript node e).firstFault =
      Script.firstFault ((e.leaves.filter (·.kind.usesPlace)).map fun l =>
        .check (x.program.resolve l.place)) := by
  rw [exprScript]
  induction e.leaves with
  | nil => rfl
  | cons l ls ih =>
      rw [List.flatMap_cons, Script.firstFault_append, firstFault_leafScript, ih]
      cases hl : l.kind.usesPlace <;> simp [hl]

theorem firstFault_subsetScript {node node' : Node} {target : Ty} {value : Expr}
    (h : (x.exprScript node value).firstFault = none) :
    (x.subsetScript node' target value).firstFault = none := by
  unfold subsetScript
  split
  · next into kind place _ =>
    have hadd : ∀ os : List Origin,
        Script.firstFault (os.map fun o => .ok { subsets := [⟨o, into, node'⟩] }) = none := by
      intro os
      simp [Script.firstFault_eq_none_iff]
    rw [Script.firstFault_append, hadd, Option.or_none]
    rcases kind with ⟨_, _⟩ | _ | _
    · rfl
    · simpa [exprScript, Expr.leaves, leafScript, accessScript, AccessKind.isBorrow,
        AccessKind.origin?] using h
    · simpa [exprScript, Expr.leaves, leafScript, accessScript, AccessKind.isBorrow,
        AccessKind.origin?] using h
  · rfl

theorem firstFault_statementScript (node : Node) (s : Statement) :
    (x.statementScript node s).firstFault = (x.statementChecks s).firstFault := by
  have hexpr := firstFault_exprScript (x := x) node s.expr
  unfold statementScript statementChecks
  cases s.target with
  | none => simp [hexpr]
  | some place =>
      have hvalue : (x.exprScript node s.expr ++
          x.subsetScript node (x.answers.ty place) s.expr).firstFault =
            (x.exprScript node s.expr).firstFault := by
        rw [Script.firstFault_append]
        cases he : (x.exprScript node s.expr).firstFault with
        | none => rw [firstFault_subsetScript he]; rfl
        | some fault => rfl
      have hended : Script.firstFault (if (x.answers.ty place).isRef then []
          else x.invalidateScript node place) = none := by
        split <;> rfl
      simp only [assignScript, Script.firstFault_append, hended]
      rw [← Script.firstFault_append (x.exprScript node s.expr), hvalue, hexpr]
      simp [Option.or_assoc]

/-- Naming the points of a block cannot fail behind the naming of its edges. -/
theorem firstFault_blockScript (b : Block) :
    (x.blockScript b).firstFault = (x.blockChecks b).firstFault := by
  rw [blockScript, blockChecks, Script.firstFault_append]
  cases hedges : x.program.blockEdges x.naming b with
  | error fault => rfl
  | ok edges =>
      have hnodes := (blockEdges_eq_ok_iff.mp hedges).1
      have hpoints : ∀ pt ∈ b.points,
          (x.pointScript pt).firstFault = (x.statementChecks pt.statement).firstFault := by
        intro pt hpt
        obtain ⟨hblock, hindex⟩ := Block.mem_points.mp hpt
        obtain ⟨hlt, _⟩ := List.getElem?_eq_some_iff.mp hindex
        have hnode := hnodes pt.index (by unfold Block.exitIndex; omega)
        rw [pointScript, hblock, hnode, Script.firstFault_cons, firstFault_statementScript]
        rfl
      rw [Script.firstFault_flatMap_congr hpoints, ← List.flatMap_map, Block.points_map_statement]
      rfl

theorem firstFault_blockChecks_eq_none_iff {b : Block} :
    (x.blockChecks b).firstFault = none ↔
      (∃ edges, x.program.blockEdges x.naming b = .ok edges) ∧ ∀ s ∈ b.statements, x.Admits s := by
  simp only [blockChecks, Script.firstFault_cons, Option.or_eq_none_iff,
    Step.fault?_check_eq_none_iff, Script.firstFault_flatMap_eq_none_iff, admits_iff]

/-- An emission ends at the first lookup that fails. -/
theorem firstFault_script (x : Extraction) :
    x.script.firstFault = Script.firstFault (x.program.blocks.flatMap x.blockChecks) :=
  Script.firstFault_flatMap_congr fun b _ => firstFault_blockScript b

end OriginFacts.Extraction
