import OriginFacts.Proofs.Emission.Checks
import OriginFacts.Proofs.Node
import OriginFacts.Proofs.Resolve

/-!
When an emission succeeds, and what it reports otherwise. Naming never fails with verbose names, so
what is left there are the lookups of the statements, and the first one to fail is reported. Under
any names, a position in the source is reported only where a span has no text.
-/

namespace OriginFacts.Extraction

variable {x : Extraction}

theorem firstFault_script_of_verbose (h : x.naming = .verbose) :
    x.script.firstFault = Script.firstFault (x.program.statements.flatMap x.statementChecks) := by
  have hnode : ∀ block (i : Nat),
      x.program.nodeAt x.naming block i = .ok (x.answers.node block i) := by
    intro block i
    have hverbose : x.program.nodeAt x.naming block i = .ok (Node.verbose block i) := by rw [h]; rfl
    rw [hverbose, answers_node hverbose]
  have hblock : ∀ b, (x.blockChecks b).firstFault =
      Script.firstFault (b.statements.flatMap x.statementChecks) := by
    intro b
    have hedges := blockEdges_eq_ok_iff.mpr
      ⟨fun i _ => hnode b.name i, fun successor _ => hnode successor 0, rfl⟩
    rw [blockChecks, hedges, Script.firstFault_cons, Step.fault?_check_ok, Option.none_or]
  rw [firstFault_script, Script.firstFault_flatMap_congr fun b _ => hblock b, Program.statements,
    List.flatMap_assoc]

theorem facts_eq_error_iff {fault : Fault} :
    x.facts = .error fault ↔ x.script.firstFault = some fault := by
  rw [facts_eq_script, ← Script.outcome_eq_error_iff]
  cases x.script.outcome <;> simp [Except.map]

theorem exists_facts_iff : (∃ f, x.facts = .ok f) ↔ x.script.firstFault = none := by
  rw [facts_eq_script, ← Script.outcome_eq_ok_iff]
  cases x.script.outcome <;> simp [Except.map]

theorem Follows.run_eq_ok_iff {m : Emit Unit} {s : Script} (h : Follows m s) {f : Facts} :
    (∃ g, run m f = (.ok (), g)) ↔ s.firstFault = none := by
  rw [h f, ← Script.outcome_eq_ok_iff]
  simp

/-- With verbose names, emission succeeds exactly if it gets through every statement. Otherwise it
reports the first lookup that fails: statements in program order, and for each one its span, its
target and the places in use from left to right. Places that are only borrowed shared are never
looked at, and relating a value to its target cannot fail once the value was evaluated. -/
theorem verbose_outcome (p : Program) (source : ByteArray) :
    let x : Extraction := ⟨p, source, .verbose⟩
    ((∃ f, x.facts = .ok f) ↔ ∀ s ∈ p.statements, x.Admits s) ∧
      (∀ fault, x.facts = .error fault ↔
        ∃ before after, p.statements.flatMap x.statementChecks = before ++ .error fault :: after ∧
          ∀ step ∈ before, step.fault? = none) ∧
      (∀ node e f, (∀ l ∈ e.leaves, l.kind.usesPlace = false) →
        ∃ g, run (x.emitExpr node e) f = (.ok (), g)) ∧
      ∀ node value f g, run (x.emitExpr node value) f = (.ok (), g) →
        ∀ target f', ∃ g', run (x.emitSubset node target value) f' = (.ok (), g') := by
  intro x
  have hscript : x.script.firstFault = Script.firstFault (p.statements.flatMap x.statementChecks) :=
    firstFault_script_of_verbose rfl
  refine ⟨?_, ?_, ?_, ?_⟩
  · rw [exists_facts_iff, hscript, Script.firstFault_flatMap_eq_none_iff]
    simp only [admits_iff]
  · intro fault
    rw [facts_eq_error_iff, hscript, Script.firstFault, List.findSome?_eq_some_iff]
    constructor
    · rintro ⟨before, step, after, hsplit, hstep, hbefore⟩
      cases step with
      | ok rows => simp at hstep
      | error fault' => cases hstep; exact ⟨before, after, hsplit, hbefore⟩
    · rintro ⟨before, after, hsplit, hbefore⟩
      exact ⟨before, .error fault, after, hsplit, rfl, hbefore⟩
  · intro node e f hleaves
    have hnone : e.leaves.filter (·.kind.usesPlace) = [] :=
      List.filter_eq_nil_iff.mpr fun l hl => by simp [hleaves l hl]
    rw [(follows_emitExpr node e).run_eq_ok_iff, firstFault_exprScript, hnone]
    rfl
  · intro node value f g hvalue target f'
    have hexpr := (follows_emitExpr node value).run_eq_ok_iff.mp ⟨g, hvalue⟩
    exact (follows_emitSubset node target value).run_eq_ok_iff.mpr (firstFault_subsetScript hexpr)

end OriginFacts.Extraction

namespace OriginFacts

theorem Program.isSpanFault_of_nodeAt {p : Program} {naming : Naming} {block : String} {i : Int}
    {fault : Fault} (h : p.nodeAt naming block i = .error fault) : fault.isSpanFault = false := by
  rcases nodeAt_eq_error h with ⟨_, _, rfl⟩ | ⟨_, rfl⟩
  · rfl
  · rfl

theorem Program.exists_nodeAt_of_edge_eq_error {p : Program} {naming : Naming}
    {source target : String × Nat} {fault : Fault} (h : p.edge naming source target = .error fault) :
    ∃ block i, p.nodeAt naming block i = .error fault := by
  rcases bind_eq_error_iff.mp h with hsource | ⟨s, _, h⟩
  · exact ⟨_, _, hsource⟩
  · rcases bind_eq_error_iff.mp h with htarget | ⟨t, _, h⟩
    · exact ⟨_, _, htarget⟩
    · cases h

/-- The edges of a block are at fault only where a node is. -/
theorem Program.exists_nodeAt_of_blockEdges_eq_error {p : Program} {naming : Naming} {b : Block}
    {fault : Fault} (h : p.blockEdges naming b = .error fault) :
    ∃ block i, p.nodeAt naming block i = .error fault := by
  rcases bind_eq_error_iff.mp h with hinner | ⟨inner, _, h⟩
  · obtain ⟨i, _, hedge⟩ := exists_of_mapM_eq_error hinner
    exact exists_nodeAt_of_edge_eq_error hedge
  · rcases bind_eq_error_iff.mp h with hexit | ⟨exit, _, h⟩
    · exact ⟨_, _, hexit⟩
    · rcases bind_eq_error_iff.mp h with houter | ⟨outer, _, h⟩
      · obtain ⟨successor, _, hedge⟩ := exists_of_mapM_eq_error houter
        rcases bind_eq_error_iff.mp hedge with hnode | ⟨node, _, hend⟩
        · exact ⟨_, _, hnode⟩
        · cases hend
      · cases h

namespace Extraction

variable {x : Extraction} {fault : Fault}

theorem textIn_of_mem_statementChecks {s : Statement} (h : .error fault ∈ x.statementChecks s)
    (hspan : fault.isSpanFault = true) : s.span.textIn x.source = .error fault := by
  simp only [statementChecks, List.mem_append, List.mem_singleton, List.mem_map] at h
  rcases h with (hcheck | ⟨place, _, hcheck⟩) | ⟨l, _, hcheck⟩
  · exact Step.check_eq_error_iff.mp hcheck.symm
  · simp [Program.isSpanFault_of_resolve (Step.check_eq_error_iff.mp hcheck)] at hspan
  · simp [Program.isSpanFault_of_resolve (Step.check_eq_error_iff.mp hcheck)] at hspan

/-- A position is reported only for a statement whose span has no text. -/
theorem exists_textIn_of_facts_eq_error (h : x.facts = .error fault)
    (hspan : fault.isSpanFault = true) :
    ∃ s ∈ x.program.statements, s.span.textIn x.source = .error fault := by
  rw [facts_eq_error_iff, firstFault_script] at h
  obtain ⟨b, hb, hcheck⟩ := List.mem_flatMap.mp (Script.mem_of_firstFault_eq_some h)
  rcases List.mem_cons.mp hcheck with hedges | hcheck
  · obtain ⟨block, i, hnode⟩ := Program.exists_nodeAt_of_blockEdges_eq_error
      (Step.check_eq_error_iff.mp hedges.symm)
    simp [Program.isSpanFault_of_nodeAt hnode] at hspan
  · obtain ⟨s, hs, hcheck⟩ := List.mem_flatMap.mp hcheck
    exact ⟨s, List.mem_flatMap.mpr ⟨b, hb, hs⟩, textIn_of_mem_statementChecks hcheck hspan⟩

end Extraction

end OriginFacts
