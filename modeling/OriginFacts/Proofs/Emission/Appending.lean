import OriginFacts.Proofs.Emission.Declared

/-!
Emission only appends, and does not look at what is there: how an operation ends and which rows it
adds is settled by the program alone. Operations that share a fact base, failed ones included, leave
there what they would leave in an empty one, one after the other.
-/

namespace OriginFacts

/-- An operation on a fact base: the facts of the whole program, of a block, or of a part of a
statement at a node. Neither the block nor the part has to belong to the program. -/
inductive Operation where
  | program
  | block (b : Block)
  | assign (node : Node) (place : Place) (value : Expr)
  | expr (node : Node) (e : Expr)
  | subset (node : Node) (target : Ty) (value : Expr)

namespace Operation

variable (x : Extraction)

def emission : Operation → Emit Unit
  | .program => x.emitProgram
  | .block b => x.emitBlock b
  | .assign node place value => x.emitAssign node place value
  | .expr node e => x.emitExpr node e
  | .subset node target value => x.emitSubset node target value

def outcome (op : Operation) : Except Fault Unit :=
  (Extraction.run (op.emission x) {}).1

/-- What the operation leaves in an empty fact base. -/
def added (op : Operation) : Facts :=
  (Extraction.run (op.emission x) {}).2

def script : Operation → Script
  | .program => x.script
  | .block b => x.blockScript b
  | .assign node place value => x.assignScript node place value
  | .expr node e => x.exprScript node e
  | .subset node target value => x.subsetScript node target value

variable {x}

theorem follows_script (op : Operation) : Extraction.Follows (op.emission x) (op.script x) := by
  cases op with
  | program => exact Extraction.follows_emitBlocks x.program.blocks
  | block b => exact Extraction.follows_emitBlock b
  | assign node place value => exact Extraction.follows_emitAssign node place value
  | expr node e => exact Extraction.follows_emitExpr node e
  | subset node target value => exact Extraction.follows_emitSubset node target value

theorem outcome_eq_script (op : Operation) : op.outcome x = (op.script x).outcome := by
  rw [outcome, op.follows_script]

theorem added_eq_script (op : Operation) : op.added x = (op.script x).added := by
  rw [added, op.follows_script, Facts.empty_append]

/-- An operation ends as on an empty fact base, and adds the same rows. -/
theorem run_emission (op : Operation) (f : Facts) :
    Extraction.run (op.emission x) f = (op.outcome x, f ++ op.added x) := by
  rw [outcome_eq_script, added_eq_script]
  exact op.follows_script f

/-! ## Blocks -/

/-- Edges are added together: if one of them has no name, the block adds nothing at all. -/
theorem run_block_of_blockEdges_eq_error {b : Block} {fault : Fault}
    (h : x.program.blockEdges x.naming b = .error fault) (f : Facts) :
    Extraction.run (x.emitBlock b) f = (.error fault, f) := by
  have hscript : x.blockScript b = .error fault :: (x.blockScript b).tail := by
    rw [Extraction.blockScript, h]
    rfl
  have hrun := Extraction.follows_emitBlock (x := x) b f
  rw [hscript] at hrun
  exact hrun.trans (congrArg (Prod.mk _) (Facts.append_empty f))

theorem added_blocks (bs : List Block) :
    Script.added (bs.flatMap x.blockScript) =
      Facts.concat ((x.entered bs).map fun b => (block b).added x) := by
  induction bs with
  | nil => rfl
  | cons b bs ih =>
      have hrun : (Extraction.run (x.emitBlock b) {}).1 = (x.blockScript b).outcome :=
        outcome_eq_script (block b)
      rw [List.flatMap_cons, Extraction.entered, hrun]
      -- A block that fails is the last one entered, and cuts its script off there.
      cases hfault : (x.blockScript b).firstFault with
      | none =>
          rw [Script.outcome_eq_ok_iff.mpr hfault, Script.added_append_of_eq_none hfault, ih,
            List.map_cons, Facts.concat, added_eq_script]
          rfl
      | some fault =>
          rw [Script.outcome_eq_error_iff.mpr hfault, Script.added_append_of_eq_some hfault,
            List.map_singleton, Facts.concat, Facts.concat, Facts.append_empty, added_eq_script]
          rfl

/-- The whole program adds what its blocks add, up to and with the first one that fails. -/
theorem added_program : program.added x =
    Facts.concat ((x.entered x.program.blocks).map fun b => (block b).added x) := by
  rw [added_eq_script]
  exact added_blocks x.program.blocks

theorem added_program_of_facts {f : Facts} (h : x.facts = .ok f) : program.added x = f := by
  unfold Extraction.facts at h
  split at h
  · next facts hrun =>
    cases h
    exact congrArg Prod.snd hrun
  · cases h

/-! ## Sequences -/

/-- Operations one after the other on one fact base, each for a program of its own. A failed one
leaves what it has added, and the next one goes on from there. -/
def runAll : List (Extraction × Operation) → Facts → List (Except Fault Unit) × Facts
  | [], f => ([], f)
  | (x, op) :: ops, f =>
    let (outcome, g) := Extraction.run (op.emission x) f
    let (outcomes, h) := runAll ops g
    (outcome :: outcomes, h)

theorem runAll_eq (ops : List (Extraction × Operation)) (f : Facts) :
    runAll ops f =
      (ops.map fun (x, op) => op.outcome x,
        f ++ Facts.concat (ops.map fun (x, op) => op.added x)) := by
  induction ops generalizing f with
  | nil => simp [runAll, Facts.concat]
  | cons entry ops ih =>
      obtain ⟨x, op⟩ := entry
      simp only [runAll, run_emission, ih, List.map_cons, Facts.concat, Facts.append_assoc]

end Operation

theorem Facts.rows_append (f g : Facts) (r : Relation) : (f ++ g).rows r = f.rows r ++ g.rows r := by
  cases r <;> simp [rows]

theorem Facts.rows_concat (fs : List Facts) (r : Relation) :
    (concat fs).rows r = fs.flatMap (·.rows r) :=
  concat_relation (·.rows r) (by cases r <;> rfl) (fun f g => rows_append f g r) fs

/-- Each operation, on every fact base, ends as on the empty one and appends the rows that it leaves
there, whether it succeeds or stops midway. A block whose edges cannot be named adds nothing, and the
whole program adds what the blocks up to the first failing one add. So after any sequence of
operations each relation holds what was there, followed by what the operations add separately. -/
theorem operations_append :
    (∀ (x : Extraction) (op : Operation) (f : Facts),
      Extraction.run (op.emission x) f = (op.outcome x, f ++ op.added x)) ∧
    (∀ (x : Extraction) (b : Block) (fault : Fault),
      x.program.blockEdges x.naming b = .error fault →
        ∀ f, Extraction.run (x.emitBlock b) f = (.error fault, f)) ∧
    (∀ x : Extraction, Operation.program.added x =
      Facts.concat ((x.entered x.program.blocks).map fun b => (Operation.block b).added x)) ∧
    ∀ (ops : List (Extraction × Operation)) (f : Facts),
      (Operation.runAll ops f).1 = (ops.map fun (x, op) => op.outcome x) ∧
      ∀ r, (Operation.runAll ops f).2.rows r =
        f.rows r ++ ops.flatMap fun (x, op) => (op.added x).rows r := by
  refine ⟨fun x op f => op.run_emission f,
    fun x b fault h f => Operation.run_block_of_blockEdges_eq_error h f,
    fun x => Operation.added_program, fun ops f => ?_⟩
  rw [Operation.runAll_eq]
  refine ⟨rfl, fun r => ?_⟩
  rw [Facts.rows_append, Facts.rows_concat, List.flatMap_map]

/-- A block with one statement more than there are letters. -/
def Block.crowded : Block where
  name := "bb0"
  statements := List.replicate 27 ⟨none, .unit, ⟨0, 1⟩⟩
  successors := []

/-- The crowded block stops at its edges, and leaves no trace between two emissions of the sample. -/
theorem operations_append_crowded :
    let x := Extraction.sample .letters
    let fault := Fault.nodeOverflow 26 "bb0[26]"
    (∀ f, Extraction.run (x.emitBlock .crowded) f = (.error fault, f)) ∧
      (Operation.runAll [(x, .program), (x, .block .crowded), (x, .program)] {}).2.rows .cfgEdge =
        [["a", "b"], ["b", "a"], ["a", "b"], ["b", "a"]] := by
  intro x fault
  obtain ⟨_, hedges, _, hall⟩ := operations_append
  have hcrowded : x.program.blockEdges .letters .crowded = .error fault := by rfl
  have hrun := hedges x .crowded fault hcrowded
  have hsample : Operation.program.added x = Extraction.sampleFacts "a" "b" :=
    Operation.added_program_of_facts Extraction.facts_sample_letters
  have hnothing : (Operation.block .crowded).added x = {} := congrArg Prod.snd (hrun {})
  refine ⟨hrun, ?_⟩
  simp only [(hall _ _).2, List.flatMap_cons, hsample, hnothing]
  rfl

end OriginFacts
