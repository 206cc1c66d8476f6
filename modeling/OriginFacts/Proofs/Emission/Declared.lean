import OriginFacts.Proofs.Emission.Checks
import OriginFacts.Proofs.Span

/-!
Emission against the declared rows: it succeeds exactly if every lookup has an answer, and then each
relation holds the rows declared for these answers, in order and with repetitions.
-/

namespace OriginFacts

namespace Extraction

variable {x : Extraction}

/-! ## The rows of a script -/

@[simp]
theorem originsAt_append (node : Node) (os os' : List Origin) :
    originsAt node (os ++ os') = originsAt node os ++ originsAt node os' :=
  List.map_append

@[simp]
theorem originsAt_nil (node : Node) : originsAt node [] = [] := rfl

theorem allRows_leaves (node : Node) (ls : List Leaf) :
    Script.allRows (ls.flatMap (x.leafScript node)) =
      { accesses := originsAt node ((ls.filter (·.kind.usesPlace)).flatMap fun l =>
          x.answers.origins l.place)
        clears := originsAt node (ls.filterMap (·.kind.origin?))
        invalidations := originsAt node ((ls.filter (·.kind.writesPlace)).flatMap fun l =>
          x.program.borrowsOf l.place) } := by
  induction ls with
  | nil => rfl
  | cons l ls ih =>
      rw [List.flatMap_cons, Script.allRows_append, ih]
      rcases l with ⟨⟨_ | _, o⟩ | _ | _, place⟩ <;>
        ext1 <;>
        simp [leafScript, accessScript, invalidateScript, AccessKind.usesPlace,
          AccessKind.writesPlace, AccessKind.origin?, originsAt]

theorem allRows_subsetScript (node : Node) (target : Ty) (value : Expr) :
    (x.subsetScript node target value).allRows =
      { subsets := (x.answers.flow target value).map fun (o, into) => ⟨o, into, node⟩ } := by
  unfold subsetScript Answers.flow
  cases target.refOrigin? with
  | none => cases x.answers.valueOrigin? value <;> rfl
  | some into =>
      cases value with
      | access kind place =>
          have hcheck : Script.allRows (if kind.isBorrow then []
              else [.check (x.program.resolve place)]) = {} := by
            split <;> simp
          cases x.answers.valueOrigin? (.access kind place) <;> simp [hcheck]
      | call _ _ => rfl
      | number _ => rfl
      | unit => rfl

theorem allRows_pointScript (pt : Point) :
    (x.pointScript pt).allRows = x.answers.pointFacts x.program pt := by
  rcases pt with ⟨block, i, target, value, span⟩
  unfold pointScript statementScript
  cases target with
  | none =>
      ext1 <;> simp [exprScript, allRows_leaves, Answers.pointFacts, Answers.accessed, Answers.cleared,
        Answers.overwritten, Answers.ended, Answers.endedByTarget, Answers.related]
  | some place =>
      have hended : Script.allRows (if (x.answers.ty place).isRef then []
          else x.invalidateScript (x.answers.node block i) place) =
            { invalidations := originsAt (x.answers.node block i)
                (if (x.answers.ty place).isRef then [] else x.program.borrowsOf place) } := by
        split <;> simp [invalidateScript]
      ext1 <;> simp [assignScript, hended, exprScript, allRows_leaves, allRows_subsetScript,
        Answers.nodeOf, Answers.pointFacts, Answers.accessed, Answers.cleared, Answers.overwritten,
        Answers.ended, Answers.endedByTarget, Answers.related]

theorem allRows_script (x : Extraction) : x.script.allRows = x.answers.facts x.program := by
  have hblock : ∀ b, (x.blockScript b).allRows = x.answers.blockFacts x.program b := by
    intro b
    simp [blockScript, Script.allRows_flatMap, allRows_pointScript, Answers.blockFacts]
  simp only [script, Script.allRows_flatMap, hblock]
  rfl

/-! ## Answers to all lookups -/

/-- Every lookup of the emission has an answer, and `a` gives it: the nodes of all points of the
control flow graph, the text of each statement, and what each target and each place in use resolves
to. -/
structure AnsweredBy (x : Extraction) (a : Answers) : Prop where
  point : ∀ b ∈ x.program.blocks, ∀ i ≤ b.exitIndex,
    x.program.nodeAt x.naming b.name i = .ok (a.node b.name i)
  entry : ∀ b ∈ x.program.blocks, ∀ successor ∈ b.successors,
    x.program.nodeAt x.naming successor 0 = .ok (a.node successor 0)
  text : ∀ s ∈ x.program.statements, s.span.Covers x.source (a.text s.span)
  target : ∀ s ∈ x.program.statements, ∀ place, s.target = some place →
    x.program.resolve place = .ok (a.resolved place)
  leaf : ∀ s ∈ x.program.statements, ∀ l ∈ s.expr.leaves, l.kind.usesPlace = true →
    x.program.resolve l.place = .ok (a.resolved l.place)

theorem AnsweredBy.admits {a : Answers} (h : x.AnsweredBy a) {s : Statement}
    (hs : s ∈ x.program.statements) : x.Admits s where
  span := ⟨_, Span.textIn_eq_ok_iff.mpr (h.text s hs)⟩
  target place hplace := ⟨_, h.target s hs place hplace⟩
  leaf l hl huses := ⟨_, h.leaf s hs l hl huses⟩

theorem AnsweredBy.nodeOf {a : Answers} (h : x.AnsweredBy a) {pt : Point}
    (hpt : pt ∈ x.program.points) :
    x.program.nodeAt x.naming pt.block pt.index = .ok (a.nodeOf pt) := by
  obtain ⟨b, hb, hpt⟩ := Program.mem_points.mp hpt
  obtain ⟨hblock, hindex⟩ := Block.mem_points.mp hpt
  obtain ⟨hlt, _⟩ := List.getElem?_eq_some_iff.mp hindex
  rw [Answers.nodeOf, hblock]
  exact h.point b hb pt.index (by unfold Block.exitIndex; omega)

theorem answeredBy_answers
    (hedges : ∀ b ∈ x.program.blocks, ∃ edges, x.program.blockEdges x.naming b = .ok edges)
    (hstatements : ∀ s ∈ x.program.statements, x.Admits s) : x.AnsweredBy x.answers where
  point b hb := by
    obtain ⟨edges, h⟩ := hedges b hb
    exact (blockEdges_eq_ok_iff.mp h).1
  entry b hb := by
    obtain ⟨edges, h⟩ := hedges b hb
    exact (blockEdges_eq_ok_iff.mp h).2.1
  text s hs := by
    obtain ⟨text, h⟩ := (hstatements s hs).span
    rw [answers_text h]
    exact Span.textIn_eq_ok_iff.mp h
  target s hs place hplace := by
    obtain ⟨r, h⟩ := (hstatements s hs).target place hplace
    rw [h, answers_resolved h]
  leaf s hs l hl huses := by
    obtain ⟨r, h⟩ := (hstatements s hs).leaf l hl huses
    rw [h, answers_resolved h]

theorem firstFault_script_eq_none_iff : x.script.firstFault = none ↔ x.AnsweredBy x.answers := by
  rw [firstFault_script, Script.firstFault_flatMap_eq_none_iff]
  simp only [firstFault_blockChecks_eq_none_iff]
  constructor
  · intro h
    refine answeredBy_answers (fun b hb => (h b hb).1) fun s hs => ?_
    obtain ⟨b, hb, hs⟩ := List.mem_flatMap.mp hs
    exact (h b hb).2 s hs
  · intro h b hb
    refine ⟨⟨_, blockEdges_eq_ok_iff.mpr ⟨h.point b hb, h.entry b hb, rfl⟩⟩, ?_⟩
    intro s hs
    exact h.admits (List.mem_flatMap.mpr ⟨b, hb, hs⟩)

/-- Emission succeeds exactly if every lookup has an answer, and yields the rows declared for these
answers. -/
theorem facts_eq_ok_iff {f : Facts} :
    x.facts = .ok f ↔ x.AnsweredBy x.answers ∧ f = x.answers.facts x.program := by
  rw [facts_eq_script, allRows_script, ← firstFault_script_eq_none_iff]
  cases h : x.script.firstFault with
  | none => simp [Script.outcome_eq_ok_iff.mpr h, Except.map, eq_comm]
  | some fault => simp [Script.outcome_eq_error_iff.mpr h, Except.map]

end Extraction

/-! ## The relations -/

/-- The six relations of a program under given answers: the edges block by block, all other rows
point by point. -/
structure Answers.Describes (a : Answers) (p : Program) (f : Facts) : Prop where
  texts : f.texts = p.points.map fun pt => ⟨a.text pt.statement.span, a.nodeOf pt⟩
  clears : f.clears = p.points.flatMap fun pt =>
    (a.cleared pt.statement).map fun o => ⟨o, a.nodeOf pt⟩
  accesses : f.accesses = p.points.flatMap fun pt =>
    (a.accessed pt.statement).map fun o => ⟨o, a.nodeOf pt⟩
  invalidations : f.invalidations = p.points.flatMap fun pt =>
    (a.ended p pt.statement).map fun o => ⟨o, a.nodeOf pt⟩
  subsets : f.subsets = p.points.flatMap fun pt =>
    (a.related pt.statement).map fun (o, into) => ⟨o, into, a.nodeOf pt⟩
  edges : f.edges = p.blocks.flatMap a.blockEdges

theorem Answers.facts_relation (a : Answers) (p : Program) {α : Type} (relation : Facts → List α)
    (hnil : relation {} = []) (happend : ∀ f g, relation (f ++ g) = relation f ++ relation g)
    (hedges : ∀ edges, relation { edges := edges } = []) :
    relation (a.facts p) = p.points.flatMap fun pt => relation (a.pointFacts p pt) := by
  have hblock : ∀ b, relation (a.blockFacts p b) =
      b.points.flatMap fun pt => relation (a.pointFacts p pt) := by
    intro b
    rw [blockFacts, happend, hedges, Facts.concat_relation relation hnil happend, List.flatMap_map,
      List.nil_append]
  rw [facts, Facts.concat_relation relation hnil happend, List.flatMap_map, Program.points,
    List.flatMap_assoc]
  simp only [hblock]

theorem Answers.describes_facts (a : Answers) (p : Program) : a.Describes p (a.facts p) where
  texts := by
    rw [List.map_eq_flatMap]
    exact a.facts_relation p (·.texts) rfl Facts.append_texts fun _ => rfl
  clears := a.facts_relation p (·.clears) rfl Facts.append_clears fun _ => rfl
  accesses := a.facts_relation p (·.accesses) rfl Facts.append_accesses fun _ => rfl
  invalidations := a.facts_relation p (·.invalidations) rfl Facts.append_invalidations fun _ => rfl
  subsets := a.facts_relation p (·.subsets) rfl Facts.append_subsets fun _ => rfl
  edges := by
    have hpoints : ∀ b : Block, (b.points.flatMap fun pt => (a.pointFacts p pt).edges) = [] :=
      fun b => List.flatMap_eq_nil_iff.mpr fun _ _ => rfl
    have hedges := Facts.concat_relation (·.edges) rfl Facts.append_edges
    simp [facts, blockFacts, hedges, List.flatMap_map, hpoints]

/-- Whatever a program looks like, a successful emission yields exactly the declared rows: the
answers to its lookups determine every relation with its order and its repetitions. -/
theorem facts_described {x : Extraction} {f : Facts} (h : x.facts = .ok f) :
    ∃ a : Answers, x.AnsweredBy a ∧ a.Describes x.program f := by
  obtain ⟨hanswers, rfl⟩ := Extraction.facts_eq_ok_iff.mp h
  exact ⟨x.answers, hanswers, x.answers.describes_facts x.program⟩

/-- A loop of two statements: a mutable borrow kept in `r`, and a call that reads `r` and borrows
once more. -/
def Extraction.sample (naming : Naming) : Extraction where
  program := {
    vars := [⟨"x", .i32⟩, ⟨"r", .ref .mutable "'a" .i32⟩]
    structs := []
    blocks := [{
      name := "bb0"
      statements := [
        ⟨some ⟨false, "r", []⟩, .access (.borrow .mutable "'1") ⟨false, "x", []⟩, ⟨0, 14⟩⟩,
        ⟨none, .call "f" [.access .copy ⟨false, "r", []⟩,
          .access (.borrow .shared "'2") ⟨false, "x", []⟩], ⟨14, 26⟩⟩]
      successors := ["bb0"] }] }
  source := "r = &'1 mut x;f(r, &'2 x);".toUTF8
  naming := naming

/-- The facts of the sample, for given names of its two points. -/
def Extraction.sampleFacts (first second : Node) : Facts where
  accesses := [⟨"'a", second⟩]
  edges := [⟨first, second⟩, ⟨second, first⟩]
  clears := [⟨"'a", first⟩, ⟨"'1", first⟩, ⟨"'2", second⟩]
  subsets := [⟨"'1", "'a", first⟩]
  invalidations := [⟨"'1", first⟩]
  texts := [⟨"r = &'1 mut x", first⟩, ⟨"f(r, &'2 x)", second⟩]

theorem Extraction.facts_sample_letters :
    (sample .letters).facts = .ok (sampleFacts "a" "b") := by
  rfl

theorem facts_described_sample :
    (Extraction.sample .letters).facts = .ok (Extraction.sampleFacts "a" "b") ∧
      ∃ a : Answers, (Extraction.sample .letters).AnsweredBy a ∧
        a.Describes (Extraction.sample .letters).program (Extraction.sampleFacts "a" "b") :=
  ⟨Extraction.facts_sample_letters, facts_described Extraction.facts_sample_letters⟩

end OriginFacts
