import OriginFacts.Proofs.Emission.Outcome
import OriginFacts.Proofs.OriginMap

/-!
Emission under a map on origins. No step of an emission compares, drops or merges origins: the steps
for the program with other origins are the steps for the program with other origins in their rows.
-/

namespace OriginFacts

variable (rho : Origin → Origin)

def OriginAt.mapOrigins (r : OriginAt) : OriginAt :=
  ⟨rho r.origin, r.node⟩

def Subset.mapOrigins (r : Subset) : Subset :=
  ⟨rho r.source, rho r.target, r.node⟩

/-- The same rows with other origins. Edges and texts have none. -/
def Facts.mapOrigins (f : Facts) : Facts where
  accesses := f.accesses.map (OriginAt.mapOrigins rho)
  edges := f.edges
  clears := f.clears.map (OriginAt.mapOrigins rho)
  subsets := f.subsets.map (Subset.mapOrigins rho)
  invalidations := f.invalidations.map (OriginAt.mapOrigins rho)
  texts := f.texts

theorem Facts.mapOrigins_append (f g : Facts) :
    (f ++ g).mapOrigins rho = f.mapOrigins rho ++ g.mapOrigins rho := by
  ext1 <;> simp [mapOrigins]

/-! ## Steps and scripts -/

def Step.mapOrigins (step : Step) : Step :=
  mapLookup rho (Facts.mapOrigins rho) step

theorem Step.check_mapLookup {α β : Type} (answer : α → β) (lookup : Except Fault α) :
    check (mapLookup rho answer lookup) = (check lookup).mapOrigins rho := by
  cases lookup <;> rfl

namespace Script

theorem firstFault_map (s : Script) :
    firstFault (s.map (Step.mapOrigins rho)) = s.firstFault.map (Fault.mapOrigins rho) := by
  induction s with
  | nil => rfl
  | cons step s ih =>
      rw [List.map_cons, firstFault_cons, firstFault_cons, ih]
      cases step <;> rfl

theorem outcome_map (s : Script) :
    outcome (s.map (Step.mapOrigins rho)) = mapLookup rho id s.outcome := by
  rw [outcome, outcome, firstFault_map]
  cases s.firstFault <;> rfl

theorem allRows_map (s : Script) :
    allRows (s.map (Step.mapOrigins rho)) = s.allRows.mapOrigins rho := by
  induction s with
  | nil => rfl
  | cons step s ih =>
      rw [List.map_cons, allRows_cons, allRows_cons, ih, Facts.mapOrigins_append]
      cases step <;> rfl

end Script

/-! ## Nodes -/

theorem Block.statementCount_mapOrigins (bs : List Block) :
    statementCount (bs.map (Block.mapOrigins rho)) = statementCount bs := by
  induction bs with
  | nil => rfl
  | cons b bs ih => simp_all [statementCount, mapOrigins]

theorem Block.exitIndex_mapOrigins (b : Block) : (b.mapOrigins rho).exitIndex = b.exitIndex := by
  simp [exitIndex, mapOrigins]

namespace Program

variable (p : Program) (naming : Naming)

theorem statementsBefore_mapOrigins (block : String) :
    (p.mapOrigins rho).statementsBefore block = p.statementsBefore block := by
  rw [statementsBefore, statementsBefore, mapOrigins, List.takeWhile_map,
    Block.statementCount_mapOrigins]
  rfl

theorem nodeAt_mapOrigins (block : String) (i : Int) :
    (p.mapOrigins rho).nodeAt naming block i = p.nodeAt naming block i := by
  simp only [nodeAt, statementsBefore_mapOrigins]

theorem blockEdges_mapOrigins (b : Block) :
    (p.mapOrigins rho).blockEdges naming (b.mapOrigins rho) = p.blockEdges naming b := by
  simp only [blockEdges, edge, nodeAt_mapOrigins, Block.exitIndex_mapOrigins]
  rfl

variable {rho p naming}

theorem mapOrigins_of_nodeAt {block : String} {i : Int} {fault : Fault}
    (h : p.nodeAt naming block i = .error fault) : fault.mapOrigins rho = fault := by
  rcases nodeAt_eq_error h with ⟨_, _, rfl⟩ | ⟨_, rfl⟩
  · rfl
  · rfl

theorem mapOrigins_of_blockEdges {b : Block} {fault : Fault}
    (h : p.blockEdges naming b = .error fault) : fault.mapOrigins rho = fault := by
  obtain ⟨block, i, hnode⟩ := exists_nodeAt_of_blockEdges_eq_error h
  exact mapOrigins_of_nodeAt hnode

end Program

theorem Span.mapOrigins_of_textIn {rho : Origin → Origin} {span : Span} {source : ByteArray}
    {fault : Fault} (h : span.textIn source = .error fault) : fault.mapOrigins rho = fault := by
  unfold textIn at h
  split at h
  · cases h; rfl
  · split at h
    · cases h
    · cases h; rfl

/-- A lookup whose faults quote no origin is the same step under every map. -/
theorem Step.check_mapOrigins {rho : Origin → Origin} {α : Type} {lookup : Except Fault α}
    (h : ∀ {fault}, lookup = .error fault → fault.mapOrigins rho = fault) :
    (check lookup).mapOrigins rho = check lookup := by
  cases lookup with
  | ok a => rfl
  | error fault => exact congrArg Except.error (h rfl)

/-! ## Scripts of a program -/

namespace Extraction

variable (x : Extraction)

def mapOrigins : Extraction :=
  { x with program := x.program.mapOrigins rho }

theorem originsAt_map (node : Node) (os : List Origin) :
    originsAt node (os.map rho) = (originsAt node os).map (OriginAt.mapOrigins rho) := by
  simp [originsAt, OriginAt.mapOrigins]

theorem answers_node_mapOrigins (block : String) (i : Nat) :
    (x.mapOrigins rho).answers.node block i = x.answers.node block i := by
  simp only [answers, mapOrigins, Program.nodeAt_mapOrigins]

theorem answers_resolved_mapOrigins (place : Place) :
    (x.mapOrigins rho).answers.resolved place = (x.answers.resolved place).mapOrigins rho := by
  simp only [answers, mapOrigins, Program.resolve_mapOrigins]
  cases x.program.resolve place <;> rfl

theorem answers_ty_mapOrigins (place : Place) :
    (x.mapOrigins rho).answers.ty place = (x.answers.ty place).mapOrigins rho := by
  rw [Answers.ty, answers_resolved_mapOrigins]
  rfl

theorem answers_origins_mapOrigins (place : Place) :
    (x.mapOrigins rho).answers.origins place = (x.answers.origins place).map rho := by
  rw [Answers.origins, answers_resolved_mapOrigins]
  rfl

theorem valueOrigin?_mapOrigins (value : Expr) :
    (x.mapOrigins rho).answers.valueOrigin? (value.mapOrigins rho) =
      (x.answers.valueOrigin? value).map rho := by
  rcases value with ⟨⟨m, o⟩ | _ | _, place⟩ | _ | _ | _
  case access.copy => simp [Expr.mapOrigins, AccessKind.mapOrigins, Answers.valueOrigin?,
    answers_ty_mapOrigins]
  case access.move => simp [Expr.mapOrigins, AccessKind.mapOrigins, Answers.valueOrigin?,
    answers_ty_mapOrigins]
  all_goals rfl

theorem check_resolve_mapOrigins (place : Place) :
    Step.check ((x.mapOrigins rho).program.resolve place) =
      (Step.check (x.program.resolve place)).mapOrigins rho := by
  rw [← Step.check_mapLookup rho (Resolved.mapOrigins rho), ← Program.resolve_mapOrigins]
  rfl

theorem accessScript_mapOrigins (node : Node) (place : Place) :
    (x.mapOrigins rho).accessScript node place =
      (x.accessScript node place).map (Step.mapOrigins rho) := by
  rw [accessScript, check_resolve_mapOrigins, answers_origins_mapOrigins, originsAt_map]
  rfl

theorem invalidateScript_mapOrigins (node : Node) (place : Place) :
    (x.mapOrigins rho).invalidateScript node place =
      (x.invalidateScript node place).map (Step.mapOrigins rho) := by
  rw [invalidateScript, mapOrigins, Program.borrowsOf_mapOrigins, originsAt_map]
  rfl

theorem leafScript_mapOrigins (node : Node) (l : Leaf) :
    (x.mapOrigins rho).leafScript node (l.mapOrigins rho) =
      (x.leafScript node l).map (Step.mapOrigins rho) := by
  rcases l with ⟨⟨_ | _, o⟩ | _ | _, place⟩
  · rfl
  · simp only [leafScript, Leaf.mapOrigins, AccessKind.mapOrigins, accessScript_mapOrigins,
      invalidateScript_mapOrigins, List.map_append]
    rfl
  · exact accessScript_mapOrigins rho x node place
  · exact accessScript_mapOrigins rho x node place

theorem exprScript_mapOrigins (node : Node) (e : Expr) :
    (x.mapOrigins rho).exprScript node (e.mapOrigins rho) =
      (x.exprScript node e).map (Step.mapOrigins rho) := by
  rw [exprScript, exprScript, Expr.leaves_mapOrigins, List.flatMap_map, List.map_flatMap]
  simp only [leafScript_mapOrigins]

theorem subsetScript_mapOrigins (node : Node) (target : Ty) (value : Expr) :
    (x.mapOrigins rho).subsetScript node (target.mapOrigins rho) (value.mapOrigins rho) =
      (x.subsetScript node target value).map (Step.mapOrigins rho) := by
  unfold subsetScript
  rw [Ty.refOrigin?_mapOrigins]
  cases target.refOrigin? with
  | none => rfl
  | some into =>
      cases value with
      | access kind place =>
          have hborrow : (kind.mapOrigins rho).isBorrow = kind.isBorrow := by cases kind <;> rfl
          have hvalue := valueOrigin?_mapOrigins rho x (.access kind place)
          simp only [Expr.mapOrigins] at hvalue
          simp only [Option.map_some, Expr.mapOrigins, hborrow, hvalue, check_resolve_mapOrigins,
            List.map_append]
          congr 1
          · split <;> rfl
          · cases x.answers.valueOrigin? (.access kind place) <;> rfl
      | _ => rfl

theorem assignScript_mapOrigins (node : Node) (place : Place) (value : Expr) :
    (x.mapOrigins rho).assignScript node place (value.mapOrigins rho) =
      (x.assignScript node place value).map (Step.mapOrigins rho) := by
  simp only [assignScript, check_resolve_mapOrigins, answers_origins_mapOrigins, originsAt_map,
    answers_ty_mapOrigins, Ty.isRef_mapOrigins, invalidateScript_mapOrigins, exprScript_mapOrigins,
    subsetScript_mapOrigins, List.map_append]
  congr 2
  split <;> rfl

theorem statementScript_mapOrigins (node : Node) (s : Statement) :
    (x.mapOrigins rho).statementScript node (s.mapOrigins rho) =
      (x.statementScript node s).map (Step.mapOrigins rho) := by
  have htext : Step.check (s.span.textIn x.source) =
      (Step.check (s.span.textIn x.source)).mapOrigins rho :=
    (Step.check_mapOrigins Span.mapOrigins_of_textIn).symm
  obtain ⟨target, e, span⟩ := s
  simp only [statementScript, Statement.mapOrigins, List.map_append, List.map_cons, List.map_nil]
  rw [← htext]
  congr 1
  cases target with
  | none => exact exprScript_mapOrigins rho x node e
  | some place => exact assignScript_mapOrigins rho x node place e

/-- The point with other origins in its statement. -/
def mapPoint (pt : Point) : Point :=
  { pt with statement := pt.statement.mapOrigins rho }

theorem points_mapOrigins (b : Block) : (b.mapOrigins rho).points = b.points.map (mapPoint rho) := by
  simp only [Block.points, Block.mapOrigins, List.zipIdx_map, List.map_map]
  rfl

theorem pointScript_mapOrigins (pt : Point) :
    (x.mapOrigins rho).pointScript (mapPoint rho pt) =
      (x.pointScript pt).map (Step.mapOrigins rho) := by
  have hnode : (x.mapOrigins rho).program.nodeAt x.naming pt.block pt.index =
      x.program.nodeAt x.naming pt.block pt.index := Program.nodeAt_mapOrigins ..
  have hnodeOf : (x.mapOrigins rho).answers.nodeOf (mapPoint rho pt) = x.answers.nodeOf pt :=
    answers_node_mapOrigins rho x pt.block pt.index
  rw [pointScript, pointScript, List.map_cons, hnodeOf,
    Step.check_mapOrigins Program.mapOrigins_of_nodeAt, ← hnode, ← statementScript_mapOrigins]
  rfl

theorem answers_blockEdges_mapOrigins (b : Block) :
    (x.mapOrigins rho).answers.blockEdges (b.mapOrigins rho) = x.answers.blockEdges b := by
  simp only [Answers.blockEdges, answers_node_mapOrigins, Block.exitIndex_mapOrigins]
  rfl

theorem blockScript_mapOrigins (b : Block) :
    (x.mapOrigins rho).blockScript (b.mapOrigins rho) =
      (x.blockScript b).map (Step.mapOrigins rho) := by
  have hedges : (x.mapOrigins rho).program.blockEdges x.naming (b.mapOrigins rho) =
      x.program.blockEdges x.naming b := Program.blockEdges_mapOrigins ..
  rw [blockScript, blockScript, List.map_append, List.map_cons, List.map_flatMap,
    Step.check_mapOrigins Program.mapOrigins_of_blockEdges, ← hedges, points_mapOrigins,
    List.flatMap_map, answers_blockEdges_mapOrigins]
  simp only [pointScript_mapOrigins]
  rfl

theorem script_mapOrigins : (x.mapOrigins rho).script = x.script.map (Step.mapOrigins rho) := by
  show (x.program.blocks.map (Block.mapOrigins rho)).flatMap _ = _
  rw [script, List.flatMap_map, List.map_flatMap]
  simp only [blockScript_mapOrigins]

end Extraction

/-- Origins are names only. Emission for a program with other origins, equal ones or not, ends as the
emission for the program does, with the same rows or the same kind of fault, but for the origins. -/
theorem facts_mapOrigins (x : Extraction) :
    (x.mapOrigins rho).facts =
        (x.facts.map (Facts.mapOrigins rho)).mapError (Fault.mapOrigins rho) ∧
      ∀ fault : Fault, (fault.mapOrigins rho).code = fault.code := by
  refine ⟨?_, Fault.code_mapOrigins rho⟩
  rw [Extraction.facts_eq_script, Extraction.facts_eq_script, Extraction.script_mapOrigins,
    Script.outcome_map, Script.allRows_map]
  cases x.script.outcome <;> rfl

end OriginFacts
