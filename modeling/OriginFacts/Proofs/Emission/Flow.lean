import OriginFacts.Proofs.Emission.Declared
import OriginFacts.Proofs.Node

/-!
The control flow graph as it is looked up by the names of its points. A name has one point, so the
edges that leave a name and the text recorded for it are those of the blocks with that name.
-/

namespace OriginFacts

/-- Where control goes from the index `i` of a block: to the next statement, and from the exit to
the entry of each successor. -/
def Block.nextNodes (b : Block) (i : Nat) : List Node :=
  (if i + 1 < b.statements.length then [Node.verbose b.name (i + 1 : Nat)] else []) ++
    if i = b.statements.length - 1 then b.successors.map (Node.verbose · 0) else []

/-- Answers that name points `block[index]`. -/
def Answers.Verbose (a : Answers) : Prop :=
  ∀ block (i : Nat), a.node block i = Node.verbose block i

theorem Extraction.verbose_answers (p : Program) (source : ByteArray) :
    (Extraction.answers ⟨p, source, .verbose⟩).Verbose :=
  fun _ _ => answers_node rfl

namespace Answers.Verbose

variable {a : Answers} {p : Program} {f : Facts}

/-! ## Edges -/

theorem blockEdges_eq (ha : a.Verbose) (b : Block) :
    a.blockEdges b =
      (List.range b.exitIndex).map
          (fun j => ⟨Node.verbose b.name j, Node.verbose b.name (j + 1 : Nat)⟩) ++
        b.successors.map fun s => ⟨Node.verbose b.name b.exitIndex, Node.verbose s (0 : Nat)⟩ := by
  simp only [blockEdges, ha _ _]

theorem source_blockEdges (ha : a.Verbose) {b : Block} {e : Edge} (he : e ∈ a.blockEdges b) :
    ∃ i : Nat, e.source = Node.verbose b.name i := by
  rw [ha.blockEdges_eq] at he
  rcases List.mem_append.mp he with hinner | houter
  · obtain ⟨i, _, rfl⟩ := List.mem_map.mp hinner
    exact ⟨i, rfl⟩
  · obtain ⟨s, _, rfl⟩ := List.mem_map.mp houter
    exact ⟨b.exitIndex, rfl⟩

theorem leaving_of_name_eq (ha : a.Verbose) (b : Block) (i : Nat) :
    ((a.blockEdges b).filter (·.source == Node.verbose b.name i)).map (·.target) =
      b.nextNodes i := by
  have hsame : ∀ j : Nat, (Node.verbose b.name j == Node.verbose b.name i) = (j == i) := by
    intro j
    rw [Bool.eq_iff_iff]
    simp only [beq_iff_eq, Node.verbose_natCast_eq_iff, true_and]
  -- Of the edges inside the block at most one leaves the index, and the others leave the exit.
  have hinner : (List.range b.exitIndex).filter (· == i) =
      if i + 1 < b.statements.length then [i] else [] := by
    rw [List.filter_beq, List.count_range]
    have hexit : i < b.exitIndex ↔ i + 1 < b.statements.length := by
      unfold Block.exitIndex
      omega
    simp only [hexit]
    split <;> rfl
  rw [ha.blockEdges_eq, List.filter_append, List.map_append, List.filter_map, List.filter_map,
    Block.nextNodes]
  simp only [Function.comp_def, hsame, hinner]
  congr 1
  · split <;> rfl
  · by_cases hi : i = b.exitIndex
    · simp [hi, Block.exitIndex, List.filter_eq_self.mpr, Function.comp_def]
    · have hexit : i ≠ b.statements.length - 1 := hi
      simp [hexit, Ne.symm hi]

theorem leaving_of_name_ne (ha : a.Verbose) {b : Block} {name : String} (hname : b.name ≠ name)
    (i : Nat) :
    ((a.blockEdges b).filter (·.source == Node.verbose name i)).map (·.target) = [] := by
  rw [List.map_eq_nil_iff, List.filter_eq_nil_iff]
  intro e he hsource
  obtain ⟨j, hj⟩ := ha.source_blockEdges he
  rw [hj, beq_iff_eq, Node.verbose_eq_iff] at hsource
  exact hname hsource.1

/-- The edges that leave a name are those of the blocks of that name. -/
theorem successorsOf_eq (ha : a.Verbose) (h : a.Describes p f) (name : String) (i : Nat) :
    f.successorsOf (Node.verbose name i) =
      (p.blocks.filter (·.name == name)).flatMap (·.nextNodes i) := by
  rw [Facts.successorsOf, h.edges, List.filter_flatMap, List.map_flatMap]
  induction p.blocks with
  | nil => rfl
  | cons b bs ih =>
      rw [List.flatMap_cons, ih, List.filter_cons]
      by_cases hname : b.name = name
      · subst hname
        simp [ha.leaving_of_name_eq]
      · simp [hname, ha.leaving_of_name_ne hname]

theorem successorsOf_eq_nil (ha : a.Verbose) (h : a.Describes p f) {node : Node}
    (hnode : ∀ name (i : Nat), node ≠ Node.verbose name i) : f.successorsOf node = [] := by
  rw [Facts.successorsOf, h.edges, List.map_eq_nil_iff, List.filter_eq_nil_iff]
  intro e he hsource
  obtain ⟨b, _, he⟩ := List.mem_flatMap.mp he
  obtain ⟨i, hi⟩ := ha.source_blockEdges he
  exact hnode b.name i (by rw [← hi, beq_iff_eq.mp hsource])

/-! ## Texts -/

theorem textOf_eq (ha : a.Verbose) (h : a.Describes p f) (name : String) (i : Nat) :
    f.textOf (Node.verbose name i) =
      ((p.points.find? fun pt => pt.block == name && pt.index == i).map
        fun pt => a.text pt.statement.span).getD Facts.passText := by
  have hnode : ∀ pt : Point, (a.nodeOf pt == Node.verbose name i) =
      (pt.block == name && pt.index == i) := by
    intro pt
    rw [Answers.nodeOf, ha, Bool.eq_iff_iff]
    simp only [beq_iff_eq, Node.verbose_natCast_eq_iff, Bool.and_eq_true]
  rw [Facts.textOf, h.texts, List.find?_map]
  simp only [Function.comp_def, hnode, Option.map_map]

end Answers.Verbose

theorem Block.find?_points {b : Block} {name : String} {i : Nat} :
    (b.points.find? fun pt => pt.block == name && pt.index == i) =
      if b.name = name then b.statements[i]?.map fun s => ⟨name, i, s⟩ else none := by
  cases hfind : b.points.find? fun pt => pt.block == name && pt.index == i with
  | none =>
      rw [List.find?_eq_none] at hfind
      split
      · next hname =>
        cases hs : b.statements[i]? with
        | none => rfl
        | some s =>
            have hpoint : ⟨name, i, s⟩ ∈ b.points := Block.mem_points.mpr ⟨hname.symm, hs⟩
            simpa using hfind _ hpoint
      · rfl
  | some pt =>
      obtain ⟨hblock, hindex⟩ := Block.mem_points.mp (List.mem_of_find?_eq_some hfind)
      have hmatch := List.find?_some hfind
      simp only [Bool.and_eq_true, beq_iff_eq] at hmatch
      obtain ⟨rfl, rfl⟩ := hmatch
      rw [if_pos hblock.symm, hindex]
      rfl

theorem Block.find?_flatMap_points {bs : List Block} {name : String} {i : Nat}
    (h : ∀ b ∈ bs, b.name = name → b.statements.length ≤ i) :
    ((bs.flatMap points).find? fun pt => pt.block == name && pt.index == i) = none := by
  rw [List.find?_flatMap, List.findSome?_eq_none_iff]
  intro b hb
  rw [find?_points]
  split
  · next hname =>
    rw [List.getElem?_eq_none (h b hb hname)]
    rfl
  · rfl

/-- The first point of a name stands in the first block of its block's name that is long enough. -/
theorem Program.find?_points {p : Program} {name : String} {i : Nat} {b : Block}
    (h : (p.blocks.find? fun b => b.name = name ∧ i < b.statements.length) = some b) :
    ∃ s, b.statements[i]? = some s ∧
      (p.points.find? fun pt => pt.block == name && pt.index == i) = some ⟨name, i, s⟩ := by
  obtain ⟨hb, before, after, hsplit, hbefore⟩ := List.find?_eq_some_iff_append.mp h
  obtain ⟨hname, hlt⟩ := of_decide_eq_true hb
  refine ⟨b.statements[i], List.getElem?_eq_getElem hlt, ?_⟩
  have hshort : ∀ c ∈ before, c.name = name → c.statements.length ≤ i := by
    intro c hc hcname
    simpa [hcname] using hbefore c hc
  rw [Program.points, hsplit, List.flatMap_append, List.flatMap_cons, List.find?_append,
    Block.find?_flatMap_points hshort, List.find?_append, Block.find?_points, if_pos hname,
    List.getElem?_eq_getElem hlt]
  rfl

/-! ## The graph -/

/-- With verbose names the graph is exactly that of the program. From `name[i]` control goes where
the blocks of that name say, in declared order and with repetitions; from any other name it goes
nowhere. The text of `name[i]` is that of the statement `i` in the first block of that name which
has one. -/
theorem verbose_flow {p : Program} {source : ByteArray} {f : Facts}
    (h : Extraction.facts ⟨p, source, .verbose⟩ = .ok f) :
    (∀ name (i : Nat), f.successorsOf (Node.verbose name i) =
      (p.blocks.filter (·.name == name)).flatMap (·.nextNodes i)) ∧
    (∀ node, (∀ name (i : Nat), node ≠ Node.verbose name i) → f.successorsOf node = []) ∧
    (∀ name (i : Nat) b,
      (p.blocks.find? fun b => b.name = name ∧ i < b.statements.length) = some b →
        ∃ s, b.statements[i]? = some s ∧
          s.span.textIn source = .ok (f.textOf (Node.verbose name i))) ∧
    (∀ name (i : Nat), (∀ b ∈ p.blocks, b.name = name → b.statements.length ≤ i) →
      f.textOf (Node.verbose name i) = "(pass)") := by
  obtain ⟨hanswers, rfl⟩ := Extraction.facts_eq_ok_iff.mp h
  have hverbose := Extraction.verbose_answers p source
  have hrows := (Extraction.answers ⟨p, source, .verbose⟩).describes_facts p
  refine ⟨hverbose.successorsOf_eq hrows, fun _ => hverbose.successorsOf_eq_nil hrows, ?_, ?_⟩
  · intro name i b hb
    obtain ⟨s, hs, hpoint⟩ := Program.find?_points hb
    refine ⟨s, hs, ?_⟩
    rw [hverbose.textOf_eq hrows, hpoint]
    have hmem : s ∈ p.statements :=
      List.mem_flatMap.mpr ⟨b, List.mem_of_find?_eq_some hb, List.mem_of_getElem? hs⟩
    exact Span.textIn_eq_ok_iff.mpr (hanswers.text s hmem)
  · intro name i hshort
    rw [hverbose.textOf_eq hrows, Program.points, Block.find?_flatMap_points hshort]
    rfl

/-- Two blocks of one name, and an empty block whose name is that of a point. -/
def Program.tangled : Program where
  vars := []
  structs := []
  blocks := [
    ⟨"b", [⟨none, .number 0, ⟨0, 2⟩⟩], ["b[0]", "b"]⟩,
    ⟨"b[0]", [], ["b[0]", "gone", "gone"]⟩,
    ⟨"b", [⟨none, .number 1, ⟨2, 4⟩⟩, ⟨none, .unit, ⟨4, 6⟩⟩], []⟩]

theorem verbose_flow_tangled :
    ∃ f, Extraction.facts ⟨.tangled, "p;q;r;".toUTF8, .verbose⟩ = .ok f ∧
      f.successorsOf "b[0]" = ["b[0][0]", "b[0]", "b[1]"] ∧
      f.successorsOf "b[0][0]" = ["b[0][0]", "gone[0]", "gone[0]"] ∧
      f.successorsOf "b" = [] ∧
      Span.textIn ⟨4, 6⟩ "p;q;r;".toUTF8 = .ok (f.textOf "b[1]") ∧
      f.textOf "b[0][0]" = "(pass)" := by
  have hfacts : ∃ f, Extraction.facts ⟨.tangled, "p;q;r;".toUTF8, .verbose⟩ = .ok f := ⟨_, rfl⟩
  obtain ⟨f, hf⟩ := hfacts
  obtain ⟨hnext, hother, htext, hpass⟩ := verbose_flow hf
  obtain ⟨s, hs, hspan⟩ := htext "b" 1 _ rfl
  cases hs
  refine ⟨f, hf, hnext "b" 0, hnext "b[0]" 0, hother "b" ?_, hspan, hpass "b[0]" 0 (by decide)⟩
  intro name i hname
  have hlength := congrArg String.length hname
  have hbrackets : "b".length = 1 ∧ "[".length = 1 ∧ "]".length = 1 := ⟨rfl, rfl, rfl⟩
  simp only [Node.verbose, String.length_append] at hlength
  omega

end OriginFacts
