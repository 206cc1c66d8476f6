import OriginFacts.Proofs.Emission.Flow
import OriginFacts.Proofs.Emission.Renaming

/-!
Which points of the control flow graph share a letter. Letters count statements, and an empty block
has a point but no statement: its point takes the letter of whatever is declared next. Among blocks
with statements no two points share one.
-/

namespace OriginFacts

theorem Block.statementCount_append (bs cs : List Block) :
    statementCount (bs ++ cs) = statementCount bs + statementCount cs := by
  simp [statementCount]

theorem Block.statementCount_eq_zero_iff {bs : List Block} :
    statementCount bs = 0 ↔ ∀ b ∈ bs, b.statements = [] := by
  rw [statementCount, List.length_eq_zero_iff, List.flatMap_eq_nil_iff]

namespace Program

variable {p : Program}

/-- A point of the control flow graph: a statement of a block, or the entry of a block. -/
def HasPoint (p : Program) (name : String) (i : Nat) : Prop :=
  ∃ b ∈ p.blocks, b.name = name ∧ (i < b.statements.length ∨ i = 0)

/-- A block is declared before another one, and no block from it up to the other has a statement. -/
def EmptyUpTo (p : Program) (name other : String) : Prop :=
  ∃ before b between c after, p.blocks = before ++ b :: (between ++ c :: after) ∧
    b.name = name ∧ c.name = other ∧ ∀ d ∈ b :: between, d.statements = []

/-- Every block that another one is declared after has a statement. -/
def FilledBeforeLast (p : Program) : Prop :=
  ∀ b ∈ p.blocks.dropLast, b.statements ≠ []

instance : Decidable p.FilledBeforeLast :=
  inferInstanceAs (Decidable (∀ b ∈ p.blocks.dropLast, b.statements ≠ []))

theorem FitsAlphabet.exists_letter (h : p.FitsAlphabet) {name : String} {i : Nat}
    (hpoint : p.HasPoint name i) : ∃ node, p.nodeAt .letters name i = .ok node := by
  obtain ⟨b, hb, rfl, hi⟩ := hpoint
  exact exists_nodeAt_letters_iff.mpr ((h b hb).1 i (by omega))

/-! ## Positions -/

theorem statementsBefore_of_split (hnames : (p.blocks.map (·.name)).Nodup)
    {before after : List Block} {b : Block} (hsplit : p.blocks = before ++ b :: after) :
    p.statementsBefore b.name = Block.statementCount before := by
  rw [hsplit, List.map_append, List.nodup_append] at hnames
  have hbefore : ∀ c ∈ before, (c.name != b.name) = true := by
    intro c hc
    have hne := hnames.2.2 c.name (List.mem_map_of_mem hc) b.name (by simp)
    simpa using hne
  rw [statementsBefore, hsplit, List.takeWhile_append_of_pos hbefore]
  simp

/-- In declared order the positions of two blocks meet only where nothing lies between them. -/
theorem position_eq_iff (hnames : (p.blocks.map (·.name)).Nodup)
    {before between after : List Block} {b c : Block}
    (hsplit : p.blocks = before ++ b :: (between ++ c :: after)) {i j : Nat}
    (hi : i < b.statements.length ∨ i = 0) :
    p.statementsBefore b.name + i = p.statementsBefore c.name + j ↔
      i = 0 ∧ j = 0 ∧ ∀ d ∈ b :: between, d.statements = [] := by
  have hsplit' : p.blocks = (before ++ b :: between) ++ c :: after := by simp [hsplit]
  rw [statementsBefore_of_split hnames hsplit, statementsBefore_of_split hnames hsplit',
    Block.statementCount_append, ← Block.statementCount_eq_zero_iff, Block.statementCount_cons]
  omega

/-- Two blocks are the same or one is declared before the other. -/
theorem block_trichotomy {b c : Block} (hb : b ∈ p.blocks) (hc : c ∈ p.blocks) :
    b = c ∨ (∃ before between after, p.blocks = before ++ b :: (between ++ c :: after)) ∨
      ∃ before between after, p.blocks = before ++ c :: (between ++ b :: after) := by
  obtain ⟨before, after, hsplit⟩ := List.append_of_mem hb
  rw [hsplit, List.mem_append, List.mem_cons] at hc
  rcases hc with hbefore | rfl | hafter
  · obtain ⟨first, between, rfl⟩ := List.append_of_mem hbefore
    exact Or.inr (Or.inr ⟨first, between, after, by simp [hsplit]⟩)
  · exact Or.inl rfl
  · obtain ⟨between, last, rfl⟩ := List.append_of_mem hafter
    exact Or.inr (Or.inl ⟨before, between, last, hsplit⟩)

theorem EmptyUpTo.statementsBefore_eq (hnames : (p.blocks.map (·.name)).Nodup) {name other : String}
    (h : p.EmptyUpTo name other) : p.statementsBefore name = p.statementsBefore other := by
  obtain ⟨before, b, between, c, after, hsplit, rfl, rfl, hempty⟩ := h
  exact (position_eq_iff hnames hsplit (Or.inr rfl)).mpr ⟨rfl, rfl, hempty⟩

/-- Different points have one position exactly if they are entries of blocks with no statement in
between. -/
theorem position_eq_position_iff (hnames : (p.blocks.map (·.name)).Nodup) {name other : String}
    {i j : Nat} (hname : p.HasPoint name i) (hother : p.HasPoint other j) :
    p.statementsBefore name + i = p.statementsBefore other + j ↔
      name = other ∧ i = j ∨
        i = 0 ∧ j = 0 ∧ (p.EmptyUpTo name other ∨ p.EmptyUpTo other name) := by
  constructor
  · intro hposition
    obtain ⟨b, hb, rfl, hi⟩ := hname
    obtain ⟨c, hc, rfl, hj⟩ := hother
    rcases block_trichotomy hb hc with rfl | ⟨before, between, after, hsplit⟩ |
      ⟨before, between, after, hsplit⟩
    · exact Or.inl ⟨rfl, by omega⟩
    · obtain ⟨rfl, rfl, hempty⟩ := (position_eq_iff hnames hsplit hi).mp hposition
      exact Or.inr ⟨rfl, rfl, Or.inl ⟨before, b, between, c, after, hsplit, rfl, rfl, hempty⟩⟩
    · obtain ⟨rfl, rfl, hempty⟩ := (position_eq_iff hnames hsplit hj).mp hposition.symm
      exact Or.inr ⟨rfl, rfl, Or.inr ⟨before, c, between, b, after, hsplit, rfl, rfl, hempty⟩⟩
  · rintro (⟨rfl, rfl⟩ | ⟨rfl, rfl, hempty | hempty⟩)
    · rfl
    · exact hempty.statementsBefore_eq hnames
    · exact (hempty.statementsBefore_eq hnames).symm

theorem filledBeforeLast_iff : p.FilledBeforeLast ↔ ∀ name other, ¬ p.EmptyUpTo name other := by
  constructor
  · rintro hfilled name other ⟨before, b, between, c, after, hsplit, _, _, hempty⟩
    have hmem : b ∈ p.blocks.dropLast := by simp [hsplit, List.dropLast_cons_of_ne_nil]
    exact hfilled b hmem (hempty b (List.mem_cons_self ..))
  · intro hnone b hb hempty
    -- The block declared right behind an empty one shares its position.
    have hsplit : ∃ before c after, p.blocks = before ++ b :: c :: after := by
      obtain ⟨before, between, hdrop⟩ := List.append_of_mem hb
      have hblocks : p.blocks ≠ [] := by
        rintro hnil
        simp [hnil] at hb
      rw [← List.dropLast_concat_getLast hblocks, hdrop]
      cases between with
      | nil => exact ⟨before, p.blocks.getLast hblocks, [], by simp⟩
      | cons c between => exact ⟨before, c, between ++ [p.blocks.getLast hblocks], by simp⟩
    obtain ⟨before, c, after, hsplit⟩ := hsplit
    exact hnone b.name c.name ⟨before, b, [], c, after, hsplit, rfl, rfl, by simpa using hempty⟩

theorem EmptyUpTo.hasPoint {name other : String} (h : p.EmptyUpTo name other) :
    p.HasPoint name 0 ∧ p.HasPoint other 0 := by
  obtain ⟨before, b, between, c, after, hsplit, rfl, rfl, _⟩ := h
  exact ⟨⟨b, by simp [hsplit], rfl, Or.inr rfl⟩, ⟨c, by simp [hsplit], rfl, Or.inr rfl⟩⟩

theorem EmptyUpTo.ne (hnames : (p.blocks.map (·.name)).Nodup) {name other : String}
    (h : p.EmptyUpTo name other) : name ≠ other := by
  obtain ⟨before, b, between, c, after, hsplit, rfl, rfl, _⟩ := h
  rw [hsplit, List.map_append, List.map_cons, List.nodup_append, List.nodup_cons] at hnames
  rintro hsame
  exact hnames.2.1.1 (List.mem_map.mpr ⟨c, by simp, hsame.symm⟩)

/-! ## Letters -/

/-- Different points share a letter exactly if they are entries of blocks with no statement in
between. -/
theorem nodeAt_letters_eq_nodeAt_iff (hnames : (p.blocks.map (·.name)).Nodup) {name other : String}
    {i j : Nat} (hname : p.HasPoint name i) (hother : p.HasPoint other j)
    (hletter : ∃ node, p.nodeAt .letters name i = .ok node) :
    p.nodeAt .letters name i = p.nodeAt .letters other j ↔
      name = other ∧ i = j ∨
        i = 0 ∧ j = 0 ∧ (p.EmptyUpTo name other ∨ p.EmptyUpTo other name) := by
  obtain ⟨node, hnode⟩ := hletter
  rw [← position_eq_position_iff hnames hname hother, ← nodeAt_letters_eq_iff hnode, hnode, eq_comm]

/-- Letters tell all points apart exactly if no block is declared behind an empty one. -/
theorem letters_injective_iff (hnames : (p.blocks.map (·.name)).Nodup)
    (hletters : ∀ name i, p.HasPoint name i → ∃ node, p.nodeAt .letters name (i : Nat) = .ok node) :
    (∀ name i other j, p.HasPoint name i → p.HasPoint other j →
      p.nodeAt .letters name i = p.nodeAt .letters other j → name = other ∧ i = j) ↔
        p.FilledBeforeLast := by
  rw [filledBeforeLast_iff]
  constructor
  · intro hinjective name other hempty
    obtain ⟨hname, hother⟩ := hempty.hasPoint
    have hshared := nodeAt_letters_eq_nodeAt_iff hnames hname hother (hletters name 0 hname)
    have hsame := hshared.mpr (Or.inr ⟨rfl, rfl, Or.inl hempty⟩)
    exact hempty.ne hnames (hinjective name 0 other 0 hname hother hsame).1
  · intro hfilled name i other j hname hother hsame
    have hshared := nodeAt_letters_eq_nodeAt_iff hnames hname hother (hletters name i hname)
    rcases hshared.mp hsame with hpoint | ⟨_, _, hempty | hempty⟩
    · exact hpoint
    · exact absurd hempty (hfilled name other)
    · exact absurd hempty (hfilled other name)

end Program

/-! ## Edges -/

section

variable {p : Program} {source : ByteArray} {f g : Facts}

theorem Program.hasPoint_of_le_exitIndex {b : Block} (hb : b ∈ p.blocks) {i : Nat}
    (hi : i ≤ b.exitIndex) : p.HasPoint b.name i :=
  ⟨b, hb, rfl, by unfold Block.exitIndex at hi; omega⟩

/-- With declared successors, edges go from points to points. -/
theorem exists_points_of_mem_edges
    (hdeclared : ∀ b ∈ p.blocks, ∀ s ∈ b.successors, ∃ c ∈ p.blocks, c.name = s)
    (hg : Extraction.facts ⟨p, source, .verbose⟩ = .ok g) {e : Edge} (he : e ∈ g.edges) :
    ∃ name i other j, p.HasPoint name i ∧ p.HasPoint other j ∧
      e = ⟨Node.verbose name (i : Nat), Node.verbose other (j : Nat)⟩ := by
  obtain ⟨_, rfl⟩ := Extraction.facts_eq_ok_iff.mp hg
  have hverbose := Extraction.verbose_answers p source
  rw [(Answers.describes_facts _ p).edges] at he
  obtain ⟨b, hb, he⟩ := List.mem_flatMap.mp he
  rw [hverbose.blockEdges_eq] at he
  rcases List.mem_append.mp he with hinner | houter
  · obtain ⟨i, hi, rfl⟩ := List.mem_map.mp hinner
    have hi := List.mem_range.mp hi
    exact ⟨b.name, i, b.name, i + 1, Program.hasPoint_of_le_exitIndex hb (Nat.le_of_lt hi),
      Program.hasPoint_of_le_exitIndex hb hi, rfl⟩
  · obtain ⟨s, hs, rfl⟩ := List.mem_map.mp houter
    obtain ⟨c, hc, rfl⟩ := hdeclared b hb s hs
    exact ⟨b.name, b.exitIndex, c.name, 0, Program.hasPoint_of_le_exitIndex hb (Nat.le_refl _),
      ⟨c, hc, rfl, Or.inr rfl⟩, rfl⟩

end

/-! ## Merging -/

/-- Where block names are not repeated, two points share a letter exactly if they are entries of
blocks with no statement in between. So letters tell all points apart exactly if every block but the
last one has a statement, and then an edge with letters leads back to its own node only where the
verbose one does. -/
theorem letters_merging {p : Program} (hnames : (p.blocks.map (·.name)).Nodup)
    (hdeclared : ∀ b ∈ p.blocks, ∀ s ∈ b.successors, ∃ c ∈ p.blocks, c.name = s)
    (hletters : ∀ name i, p.HasPoint name i → ∃ node, p.nodeAt .letters name (i : Nat) = .ok node) :
    (∀ name i other j, p.HasPoint name i → p.HasPoint other j →
      (p.nodeAt .letters name i = p.nodeAt .letters other j ↔
        name = other ∧ i = j ∨
          i = 0 ∧ j = 0 ∧ (p.EmptyUpTo name other ∨ p.EmptyUpTo other name))) ∧
    ((∀ name i other j, p.HasPoint name i → p.HasPoint other j →
      p.nodeAt .letters name i = p.nodeAt .letters other j → name = other ∧ i = j) ↔
        p.FilledBeforeLast) ∧
    (p.FilledBeforeLast → ∀ source f g, Extraction.facts ⟨p, source, .letters⟩ = .ok f →
      Extraction.facts ⟨p, source, .verbose⟩ = .ok g → ∀ (k : Nat) e e', f.edges[k]? = some e →
        g.edges[k]? = some e' → e.source = e.target → e'.source = e'.target) := by
  have hinjective := Program.letters_injective_iff hnames hletters
  refine ⟨?_, hinjective, ?_⟩
  · intro name i other j hname hother
    exact Program.nodeAt_letters_eq_nodeAt_iff hnames hname hother (hletters name i hname)
  · intro hfilled source f g hf hg k e e' he he' hself
    obtain ⟨name, i, other, j, hname, hother, rfl⟩ :=
      exists_points_of_mem_edges hdeclared hg (List.mem_of_getElem? he')
    have hedge : e = ⟨p.letterOf (Node.verbose name i), p.letterOf (Node.verbose other j)⟩ := by
      rw [Extraction.letters_facts_rename hf hg, Facts.rename, List.getElem?_map, he'] at he
      exact (Option.some.inj he).symm
    simp only [hedge] at hself
    have hpoint : ∀ name i, p.HasPoint name i →
        p.nodeAt .letters name i = .ok (p.letterOf (Node.verbose name i)) := by
      intro name i hname
      have hfits := Program.exists_nodeAt_letters_iff.mp (hletters name i hname)
      exact Program.nodeAt_letters_eq_letterOf hfits
    have hsame : p.nodeAt .letters name i = p.nodeAt .letters other j := by
      rw [hpoint name i hname, hpoint other j hother, hself]
    obtain ⟨rfl, rfl⟩ := hinjective.mpr hfilled name i other j hname hother hsame
    rfl

/-- Two blocks: the first one goes on to the second one, which goes around in a loop. -/
def Program.jump (first second : List Statement) : Program :=
  ⟨[], [], [⟨"bb0", first, ["bb1"]⟩, ⟨"bb1", second, ["bb1"]⟩]⟩

theorem Program.jump_hasPoint (first second : List Statement) :
    (jump first second).HasPoint "bb0" 0 ∧ (jump first second).HasPoint "bb1" 0 := by
  refine ⟨⟨⟨"bb0", first, ["bb1"]⟩, ?_, rfl, Or.inr rfl⟩,
    ⟨⟨"bb1", second, ["bb1"]⟩, ?_, rfl, Or.inr rfl⟩⟩
  · exact List.mem_cons_self ..
  · exact List.mem_cons_of_mem _ (List.mem_cons_self ..)

/-- The second block is empty. -/
def Program.emptyLast : Program :=
  jump [⟨none, .number 0, ⟨0, 2⟩⟩] []

/-- The first block is empty. -/
def Program.emptyFirst : Program :=
  jump [] [⟨none, .number 0, ⟨0, 2⟩⟩]

-- An empty block at the end has a letter of its own.
theorem letters_merging_emptyLast :
    Program.emptyLast.nodeAt .letters "bb0" 0 ≠ Program.emptyLast.nodeAt .letters "bb1" 0 ∧
      ∀ source f g, Extraction.facts ⟨.emptyLast, source, .letters⟩ = .ok f →
        Extraction.facts ⟨.emptyLast, source, .verbose⟩ = .ok g → ∀ (k : Nat) e e',
          f.edges[k]? = some e → g.edges[k]? = some e' → e.source = e.target →
            e'.source = e'.target := by
  have hfits : Program.emptyLast.FitsAlphabet := by decide
  have hfilled : Program.emptyLast.FilledBeforeLast := by decide
  obtain ⟨_, hinjective, hself⟩ := letters_merging (p := .emptyLast) (by decide) (by decide)
    fun _ _ => hfits.exists_letter
  refine ⟨?_, hself hfilled⟩
  intro hsame
  obtain ⟨hfirst, hsecond⟩ := Program.jump_hasPoint [⟨none, .number 0, ⟨0, 2⟩⟩] []
  have hblock := (hinjective.mpr hfilled "bb0" 0 "bb1" 0 hfirst hsecond hsame).1
  exact absurd hblock (by decide)

-- An empty block in front of another one takes its letter, and the jump turns into a loop.
theorem letters_merging_emptyFirst :
    (Program.emptyFirst.blocks.map (·.name)).Nodup ∧
      (∀ b ∈ Program.emptyFirst.blocks, ∀ s ∈ b.successors,
        ∃ c ∈ Program.emptyFirst.blocks, c.name = s) ∧
      (∀ name i, Program.emptyFirst.HasPoint name i →
        ∃ node, Program.emptyFirst.nodeAt .letters name (i : Nat) = .ok node) ∧
      Program.emptyFirst.HasPoint "bb0" 0 ∧ Program.emptyFirst.HasPoint "bb1" 0 ∧
      Program.emptyFirst.nodeAt .letters "bb0" 0 = .ok "a" ∧
      Program.emptyFirst.nodeAt .letters "bb1" 0 = .ok "a" ∧
      Extraction.facts ⟨.emptyFirst, "x;".toUTF8, .letters⟩ =
        .ok { edges := [⟨"a", "a"⟩, ⟨"a", "a"⟩], texts := [⟨"x", "a"⟩] } ∧
      Extraction.facts ⟨.emptyFirst, "x;".toUTF8, .verbose⟩ =
        .ok { edges := [⟨"bb0[0]", "bb1[0]"⟩, ⟨"bb1[0]", "bb1[0]"⟩]
              texts := [⟨"x", "bb1[0]"⟩] } := by
  have hfits : Program.emptyFirst.FitsAlphabet := by decide
  obtain ⟨hfirst, hsecond⟩ := Program.jump_hasPoint [] [⟨none, .number 0, ⟨0, 2⟩⟩]
  refine ⟨by decide, by decide, fun _ _ => hfits.exists_letter, hfirst, hsecond, ?_⟩
  exact ⟨rfl, rfl, rfl, rfl⟩

end OriginFacts
