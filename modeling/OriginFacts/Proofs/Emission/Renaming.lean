import OriginFacts.Proofs.Emission.Outcome
import OriginFacts.Proofs.Emission.Declared
import OriginFacts.Proofs.Node

/-!
Letters against verbose names. Both name the same points, so the facts with letters are those with
verbose names under one renaming of the nodes, which the program alone determines. The only cause of
failure that letters add is a point beyond the alphabet.
-/

namespace OriginFacts

/-! ## Facts under a renaming of their nodes -/

/-- The same rows with other nodes. -/
def Facts.rename (rho : Node → Node) (f : Facts) : Facts where
  accesses := f.accesses.map fun r => ⟨r.origin, rho r.node⟩
  edges := f.edges.map fun e => ⟨rho e.source, rho e.target⟩
  clears := f.clears.map fun r => ⟨r.origin, rho r.node⟩
  subsets := f.subsets.map fun r => ⟨r.source, r.target, rho r.node⟩
  invalidations := f.invalidations.map fun r => ⟨r.origin, rho r.node⟩
  texts := f.texts.map fun t => ⟨t.text, rho t.node⟩

theorem Facts.rename_append (rho : Node → Node) (f g : Facts) :
    (f ++ g).rename rho = f.rename rho ++ g.rename rho := by
  ext1 <;> simp [rename]

theorem Facts.rename_concat (rho : Node → Node) (fs : List Facts) :
    (concat fs).rename rho = concat (fs.map (rename rho)) := by
  induction fs with
  | nil => rfl
  | cons f fs ih => simp only [concat, List.map_cons, rename_append, ih]

/-- The same answers with other nodes. -/
def Answers.withNodes (a : Answers) (node : String → Nat → Node) : Answers :=
  { a with node := node }

namespace Answers

variable {a : Answers} {p : Program} {node : String → Nat → Node} {rho : Node → Node}

theorem withNodes_pointFacts {pt : Point}
    (hnode : node pt.block pt.index = rho (a.node pt.block pt.index)) :
    (a.withNodes node).pointFacts p pt = (a.pointFacts p pt).rename rho := by
  have hnodeOf : (a.withNodes node).nodeOf pt = rho (a.nodeOf pt) := hnode
  simp only [pointFacts, Facts.rename, Extraction.originsAt, hnodeOf, List.map_map, List.map_cons,
    List.map_nil]
  rfl

theorem withNodes_blockEdges {b : Block}
    (hpoint : ∀ i ≤ b.exitIndex, node b.name i = rho (a.node b.name i))
    (hentry : ∀ s ∈ b.successors, node s 0 = rho (a.node s 0)) :
    (a.withNodes node).blockEdges b =
      (a.blockEdges b).map fun e => ⟨rho e.source, rho e.target⟩ := by
  rw [blockEdges, blockEdges, List.map_append, List.map_map, List.map_map]
  congr 1
  · refine List.map_congr_left fun i hi => ?_
    have hi := List.mem_range.mp hi
    simp only [withNodes, Function.comp, hpoint i (Nat.le_of_lt hi), hpoint (i + 1) hi]
  · refine List.map_congr_left fun s hs => ?_
    simp only [withNodes, Function.comp, hpoint _ (Nat.le_refl _), hentry s hs]

theorem withNodes_blockFacts {b : Block}
    (hpoint : ∀ i ≤ b.exitIndex, node b.name i = rho (a.node b.name i))
    (hentry : ∀ s ∈ b.successors, node s 0 = rho (a.node s 0)) :
    (a.withNodes node).blockFacts p b = (a.blockFacts p b).rename rho := by
  rw [blockFacts, blockFacts, Facts.rename_append, Facts.rename_concat, List.map_map,
    withNodes_blockEdges hpoint hentry]
  congr 2
  refine List.map_congr_left fun pt hpt => withNodes_pointFacts ?_
  obtain ⟨hblock, hindex⟩ := Block.mem_points.mp hpt
  obtain ⟨hlt, _⟩ := List.getElem?_eq_some_iff.mp hindex
  rw [hblock]
  exact hpoint pt.index (by unfold Block.exitIndex; omega)

/-- Renaming the points of a program renames its facts. -/
theorem withNodes_facts
    (hpoint : ∀ b ∈ p.blocks, ∀ i ≤ b.exitIndex, node b.name i = rho (a.node b.name i))
    (hentry : ∀ b ∈ p.blocks, ∀ s ∈ b.successors, node s 0 = rho (a.node s 0)) :
    (a.withNodes node).facts p = (a.facts p).rename rho := by
  rw [facts, facts, Facts.rename_concat, List.map_map]
  congr 1
  exact List.map_congr_left fun b hb => withNodes_blockFacts (hpoint b hb) (hentry b hb)

end Answers

/-! ## Letters -/

namespace Program

variable {p : Program}

/-- The letter of a point that is given by its verbose name. A name beyond the alphabet stays. -/
def letterOf (p : Program) (node : Node) : Node :=
  match Node.alphabet[p.statementsBefore node.block + node.index.toNat]? with
  | some letter => String.singleton letter
  | none => node

theorem letterOf_verbose {block : String} {i : Nat} {letter : Char}
    (h : Node.alphabet[p.statementsBefore block + i]? = some letter) :
    p.letterOf (Node.verbose block i) = String.singleton letter := by
  simp [letterOf, h]

theorem nodeAt_letters_eq_letterOf {block : String} {i : Nat}
    (h : p.statementsBefore block + i < 26) :
    p.nodeAt .letters block i = .ok (p.letterOf (Node.verbose block i)) := by
  obtain ⟨letter, hletter⟩ := Node.alphabet_getElem?_isSome.mpr h
  rw [letterOf_verbose hletter]
  exact nodeAt_letters_eq_ok_iff.mpr ⟨letter, hletter, rfl⟩

/-- Every point of the control flow graph has a position below 26: those of the blocks, and the
entries of all successors, declared or not. -/
def FitsAlphabet (p : Program) : Prop :=
  ∀ b ∈ p.blocks, (∀ i ≤ b.statements.length - 1, p.statementsBefore b.name + i < 26) ∧
    ∀ s ∈ b.successors, p.statementsBefore s < 26

instance : Decidable p.FitsAlphabet :=
  inferInstanceAs (Decidable (∀ b ∈ p.blocks,
    (∀ i ≤ b.statements.length - 1, p.statementsBefore b.name + i < 26) ∧
      ∀ s ∈ b.successors, p.statementsBefore s < 26))

end Program

namespace Extraction

/-- The edges of a block have names if its points and the entries of its successors have. -/
theorem exists_blockEdges_iff {p : Program} {naming : Naming} {b : Block} :
    (∃ edges, p.blockEdges naming b = .ok edges) ↔
      (∀ i ≤ b.exitIndex, ∃ node, p.nodeAt naming b.name i = .ok node) ∧
        ∀ s ∈ b.successors, ∃ node, p.nodeAt naming s (0 : Nat) = .ok node := by
  let x : Extraction := ⟨p, .empty, naming⟩
  have hedges : ∀ edges, p.blockEdges naming b = .ok edges ↔ _ :=
    fun edges => blockEdges_eq_ok_iff (x := x)
  simp only [hedges]
  constructor
  · rintro ⟨edges, hpoint, hentry, _⟩
    exact ⟨fun i hi => ⟨_, hpoint i hi⟩, fun s hs => ⟨_, hentry s hs⟩⟩
  · rintro ⟨hpoint, hentry⟩
    refine ⟨_, fun i hi => ?_, fun s hs => ?_, rfl⟩
    · obtain ⟨node, hnode⟩ := hpoint i hi
      exact (answers_node (x := x) hnode).symm ▸ hnode
    · obtain ⟨node, hnode⟩ := hentry s hs
      exact (answers_node (x := x) hnode).symm ▸ hnode

theorem exists_facts_iff_blocks {x : Extraction} :
    (∃ f, x.facts = .ok f) ↔ ∀ b ∈ x.program.blocks,
      (∃ edges, x.program.blockEdges x.naming b = .ok edges) ∧ ∀ s ∈ b.statements, x.Admits s := by
  rw [exists_facts_iff, firstFault_script, Script.firstFault_flatMap_eq_none_iff]
  simp only [firstFault_blockChecks_eq_none_iff]

variable {p : Program} {source : ByteArray}

/-- Statements are looked up alike under both schemes. -/
theorem admits_letters_iff {s : Statement} :
    Admits ⟨p, source, .letters⟩ s ↔ Admits ⟨p, source, .verbose⟩ s := by
  rw [admits_iff, admits_iff]
  rfl

theorem exists_letters_facts_iff :
    (∃ f, facts ⟨p, source, .letters⟩ = .ok f) ↔
      (∃ g, facts ⟨p, source, .verbose⟩ = .ok g) ∧ p.FitsAlphabet := by
  simp only [exists_facts_iff_blocks, exists_blockEdges_iff, Program.exists_nodeAt_letters_iff,
    Nat.add_zero, Program.nodeAt_verbose, admits_letters_iff]
  constructor
  · intro h
    refine ⟨fun b hb => ⟨⟨fun i _ => ⟨_, rfl⟩, fun s _ => ⟨_, rfl⟩⟩, (h b hb).2⟩, ?_⟩
    exact fun b hb => (h b hb).1
  · rintro ⟨hverbose, hfits⟩ b hb
    exact ⟨hfits b hb, (hverbose b hb).2⟩

theorem letters_facts_eq (hfits : p.FitsAlphabet) :
    (answers ⟨p, source, .letters⟩).facts p =
      ((answers ⟨p, source, .verbose⟩).facts p).rename p.letterOf := by
  have hnode : ∀ block (i : Nat), p.statementsBefore block + i < 26 →
      (answers ⟨p, source, .letters⟩).node block i =
        p.letterOf ((answers ⟨p, source, .verbose⟩).node block i) := by
    intro block i hposition
    have hverbose : (answers ⟨p, source, .verbose⟩).node block i = Node.verbose block i :=
      answers_node rfl
    rw [hverbose]
    exact answers_node (Program.nodeAt_letters_eq_letterOf hposition)
  show ((answers ⟨p, source, .verbose⟩).withNodes (answers ⟨p, source, .letters⟩).node).facts p = _
  refine Answers.withNodes_facts ?_ ?_
  · intro b hb i hi
    exact hnode b.name i ((hfits b hb).1 i hi)
  · intro b hb s hs
    exact hnode s 0 ((hfits b hb).2 s hs)

theorem letters_facts_rename {f g : Facts} (hf : facts ⟨p, source, .letters⟩ = .ok f)
    (hg : facts ⟨p, source, .verbose⟩ = .ok g) : f = g.rename p.letterOf := by
  obtain ⟨_, hfits⟩ := exists_letters_facts_iff.mp ⟨f, hf⟩
  rw [(facts_eq_ok_iff.mp hf).2, (facts_eq_ok_iff.mp hg).2]
  exact letters_facts_eq hfits

end Extraction

/-! ## Positions -/

theorem Block.statementCount_cons (b : Block) (bs : List Block) :
    statementCount (b :: bs) = b.statements.length + statementCount bs := by
  simp [statementCount]

theorem Block.points_getElem? {b : Block} {k : Nat} :
    b.points[k]? = b.statements[k]?.map fun s => ⟨b.name, k, s⟩ := by
  simp [points, Function.comp_def]

theorem Block.length_points (b : Block) : b.points.length = b.statements.length := by
  simp [points]

/-- Where names of blocks are not repeated, letters count the points of the statements. -/
theorem Program.position_of_getElem? {p : Program} (hnames : (p.blocks.map (·.name)).Nodup)
    {k : Nat} {pt : Point} (hpt : p.points[k]? = some pt) :
    p.statementsBefore pt.block + pt.index = k := by
  unfold points at hpt
  unfold statementsBefore
  generalize p.blocks = bs at hnames hpt
  induction bs generalizing k with
  | nil => simp at hpt
  | cons b bs ih =>
      obtain ⟨hb, hbs⟩ := List.nodup_cons.mp hnames
      rw [List.flatMap_cons] at hpt
      by_cases hk : k < b.points.length
      · rw [List.getElem?_append_left hk, Block.points_getElem?] at hpt
        obtain ⟨s, _, rfl⟩ := Option.map_eq_some_iff.mp hpt
        simp [Block.statementCount]
      · rw [List.getElem?_append_right (by omega)] at hpt
        have hne : b.name ≠ pt.block := by
          rintro hname
          obtain ⟨c, hc, hmem⟩ := List.mem_flatMap.mp (List.mem_of_getElem? hpt)
          have hsame : c.name = b.name := (hname.trans (Block.mem_points.mp hmem).1).symm
          exact hb (List.mem_map.mpr ⟨c, hc, hsame⟩)
        have hrest := ih hbs hpt
        rw [Block.length_points] at hrest hk
        rw [List.takeWhile_cons_of_pos (by simpa using hne), Block.statementCount_cons]
        omega

/-! ## The renaming -/

/-- Facts with letters are facts with verbose names under one renaming of the nodes, which depends
on the program and not on its source. Letters succeed exactly if verbose names do and every point
fits the alphabet. Where block names are not repeated, the letters count the statements. -/
theorem letters_renaming (p : Program) :
    (∀ source f, Extraction.facts ⟨p, source, .letters⟩ = .ok f →
      ∃ g, Extraction.facts ⟨p, source, .verbose⟩ = .ok g ∧ f = g.rename p.letterOf) ∧
    (∀ source, (∃ f, Extraction.facts ⟨p, source, .letters⟩ = .ok f) ↔
      (∃ g, Extraction.facts ⟨p, source, .verbose⟩ = .ok g) ∧ p.FitsAlphabet) ∧
    (∀ block (i : Nat) letter, Node.alphabet[p.statementsBefore block + i]? = some letter →
      p.letterOf (Node.verbose block i) = String.singleton letter) ∧
    ((p.blocks.map (·.name)).Nodup → ∀ (k : Nat) pt letter, p.points[k]? = some pt →
      Node.alphabet[k]? = some letter →
        p.letterOf (Node.verbose pt.block pt.index) = String.singleton letter) := by
  refine ⟨?_, fun source => Extraction.exists_letters_facts_iff,
    fun _ _ _ => Program.letterOf_verbose, ?_⟩
  · intro source f hf
    obtain ⟨⟨g, hg⟩, _⟩ := Extraction.exists_letters_facts_iff.mp ⟨f, hf⟩
    exact ⟨g, hg, Extraction.letters_facts_rename hf hg⟩
  · intro hnames k pt letter hpt hletter
    refine Program.letterOf_verbose ?_
    rw [Program.position_of_getElem? hnames hpt]
    exact hletter

theorem letters_renaming_sample :
    let p := (Extraction.sample .letters).program
    (∃ g, (Extraction.sample .verbose).facts = .ok g ∧
      Extraction.sampleFacts "a" "b" = g.rename p.letterOf) ∧
    p.FitsAlphabet ∧ p.letterOf (Node.verbose "bb0" 1) = "b" := by
  intro p
  obtain ⟨hrename, hsuccess, _, hcount⟩ := letters_renaming p
  have hletters := Extraction.facts_sample_letters
  have hnames : (p.blocks.map (·.name)).Nodup := by decide
  have hpoint : p.points[1]? = some ⟨"bb0", 1, _⟩ := rfl
  have hsecond := hcount hnames 1 _ 'b' hpoint rfl
  exact ⟨hrename _ _ hletters, ((hsuccess _).mp ⟨_, hletters⟩).2, hsecond⟩

end OriginFacts
