import Mathlib.Data.List.Sort
import OriginFacts.Facts.Listing

/-!
Facts grouped by node. Groups stand in the order of names and each node has one, however the entries
came; the lines of a group are those of the entries for its node, in their order. So grouping loses,
repeats and reorders no fact of a node, and forgets only how facts of different nodes took turns.
-/

namespace OriginFacts

/-- The code points of a text. -/
def codePoints (text : String) : List Nat :=
  text.toList.map Char.toNat

theorem codePoints_lex {a b : String} (h : a < b) :
    List.Lex (· < ·) (codePoints a) (codePoints b) :=
  List.map_lt (fun _ _ hlt => hlt) h

/-! ## Groups -/

namespace NodeGroup

/-- In the order of names, each name once. -/
def Ordered (groups : List NodeGroup) : Prop :=
  groups.Pairwise fun g h => g.node < h.node

/-- The lines that groups have for a node. -/
def linesAt (groups : List NodeGroup) (node : Node) : List String :=
  groups.flatMap fun g => if g.node = node then g.lines else []

variable {groups : List NodeGroup} {node : Node} {lines : List String}

theorem linesAt_cons (g : NodeGroup) (groups : List NodeGroup) (node : Node) :
    linesAt (g :: groups) node = (if g.node = node then g.lines else []) ++ linesAt groups node :=
  List.flatMap_cons

theorem linesAt_eq_nil_of_lt (h : ∀ g ∈ groups, node < g.node) : linesAt groups node = [] := by
  rw [linesAt, List.flatMap_eq_nil_iff]
  intro g hg
  rw [if_neg]
  rintro rfl
  exact String.lt_irrefl _ (h g hg)

theorem Ordered.linesAt_of_mem (h : Ordered groups) {g : NodeGroup} (hg : g ∈ groups) :
    linesAt groups g.node = g.lines := by
  induction groups with
  | nil => cases hg
  | cons first groups ih =>
      obtain ⟨hfirst, hrest⟩ := List.pairwise_cons.mp h
      rw [linesAt_cons]
      rcases List.mem_cons.mp hg with rfl | hg
      · rw [if_pos rfl, linesAt_eq_nil_of_lt hfirst, List.append_nil]
      · have hne : first.node ≠ g.node := by
          intro heq
          have hlt := hfirst g hg
          rw [heq] at hlt
          exact String.lt_irrefl _ hlt
        rw [if_neg hne, ih hrest hg, List.nil_append]

theorem mem_insert_node {n : Node} :
    n ∈ (insert node lines groups).map NodeGroup.node ↔
      n = node ∨ n ∈ groups.map NodeGroup.node := by
  induction groups with
  | nil => simp [insert]
  | cons g groups ih =>
      rw [insert]
      split
      · simp
      · split
        · next hnode => simp [hnode]
        · rw [List.map_cons, List.mem_cons, ih, List.map_cons, List.mem_cons]
          exact or_left_comm

theorem Ordered.insert (h : Ordered groups) : Ordered (insert node lines groups) := by
  induction groups with
  | nil => simp [NodeGroup.insert, Ordered]
  | cons g groups ih =>
      obtain ⟨hg, hrest⟩ := List.pairwise_cons.mp h
      rw [NodeGroup.insert]
      split
      · next hlt =>
        refine List.pairwise_cons.mpr ⟨List.forall_mem_cons.mpr ⟨hlt, ?_⟩, h⟩
        exact fun other hother => String.lt_trans hlt (hg other hother)
      · split
        · next hnode =>
          subst hnode
          exact List.pairwise_cons.mpr ⟨hg, hrest⟩
        · next hle hne =>
          have hlt : g.node < node := Std.lt_of_le_of_ne (String.not_lt.mp hle) (Ne.symm hne)
          refine List.pairwise_cons.mpr ⟨fun other hother => ?_, ih hrest⟩
          rcases mem_insert_node.mp (List.mem_map_of_mem hother) with hnew | hold
          · rw [hnew]
            exact hlt
          · obtain ⟨g', hg', hnode⟩ := List.mem_map.mp hold
            rw [← hnode]
            exact hg g' hg'

/-- New lines come behind those that their node had, and no other node has them. -/
theorem Ordered.linesAt_insert (h : Ordered groups) (n : Node) :
    linesAt (NodeGroup.insert node lines groups) n =
      linesAt groups n ++ if node = n then lines else [] := by
  induction groups with
  | nil => simp [NodeGroup.insert, linesAt]
  | cons g groups ih =>
      obtain ⟨hg, hrest⟩ := List.pairwise_cons.mp h
      rw [NodeGroup.insert]
      split
      · next hlt =>
        -- The node is in front of all groups, so it had no lines.
        have hnone : linesAt (g :: groups) node = [] := by
          refine linesAt_eq_nil_of_lt (List.forall_mem_cons.mpr ⟨hlt, ?_⟩)
          exact fun other hother => String.lt_trans hlt (hg other hother)
        rw [linesAt_cons]
        by_cases hn : node = n
        · subst hn
          simp [hnone]
        · simp [hn]
      · split
        · next hnode =>
          subst hnode
          rw [linesAt_cons, linesAt_cons]
          by_cases hn : g.node = n
          · subst hn
            simp [linesAt_eq_nil_of_lt hg]
          · simp [hn]
        · rw [linesAt_cons, ih hrest, linesAt_cons, List.append_assoc]

theorem length_insert_lines :
    ((insert node lines groups).flatMap NodeGroup.lines).length =
      (groups.flatMap NodeGroup.lines).length + lines.length := by
  induction groups with
  | nil => simp [insert]
  | cons g groups ih =>
      rw [insert]
      split
      · simp only [List.flatMap_cons, List.length_append]
        omega
      · split
        · simp only [List.flatMap_cons, List.length_append]
          omega
        · simp only [List.flatMap_cons, List.length_append, ih]
          omega

end NodeGroup

/-! ## Groups against the entries they are made from -/

/-- The lines of the entries for a node, in the order of the entries. -/
def linesFor (entries : List (Node × List String)) (node : Node) : List String :=
  entries.flatMap fun entry => if entry.1 = node then entry.2 else []

/-- Groups hold what the entries say: their nodes in the order of names, each with its lines in the
order of the entries, and nothing else. -/
structure Gathers (groups : List NodeGroup) (entries : List (Node × List String)) : Prop where
  ordered : NodeGroup.Ordered groups
  nodes : ∀ node, node ∈ groups.map NodeGroup.node ↔ node ∈ entries.map Prod.fst
  lines : ∀ node, NodeGroup.linesAt groups node = linesFor entries node
  size : (groups.flatMap NodeGroup.lines).length = (entries.flatMap Prod.snd).length

namespace Gathers

variable {groups : List NodeGroup} {seen entries : List (Node × List String)}

theorem nil : Gathers [] [] :=
  ⟨.nil, fun _ => .rfl, fun _ => rfl, rfl⟩

theorem insert (h : Gathers groups seen) (entry : Node × List String) :
    Gathers (NodeGroup.insert entry.1 entry.2 groups) (seen ++ [entry]) where
  ordered := h.ordered.insert
  nodes node := by
    rw [NodeGroup.mem_insert_node, h.nodes, List.map_append, List.mem_append, or_comm]
    simp
  lines node := by
    rw [h.ordered.linesAt_insert, h.lines]
    simp [linesFor]
  size := by
    rw [NodeGroup.length_insert_lines, h.size]
    simp

theorem insertAll (h : Gathers groups seen) :
    Gathers (NodeGroup.insertAll groups entries) (seen ++ entries) := by
  induction entries generalizing groups seen with
  | nil =>
      rw [List.append_nil]
      exact h
  | cons entry entries ih =>
      have hrest := ih (h.insert entry)
      rwa [List.append_assoc] at hrest

theorem perNode (f : Facts) : Gathers f.perNode f.entries :=
  nil.insertAll

theorem forall_mem (h : Gathers groups entries) {goodNode : Node → Prop} {goodLine : String → Prop}
    (hentries : ∀ entry ∈ entries, goodNode entry.1 ∧ ∀ line ∈ entry.2, goodLine line) :
    ∀ g ∈ groups, goodNode g.node ∧ ∀ line ∈ g.lines, goodLine line := by
  intro g hg
  constructor
  · have hnode := (h.nodes g.node).mp (List.mem_map_of_mem hg)
    obtain ⟨entry, hentry, hsame⟩ := List.mem_map.mp hnode
    rw [← hsame]
    exact (hentries entry hentry).1
  · intro line hline
    rw [← h.ordered.linesAt_of_mem hg, h.lines] at hline
    obtain ⟨entry, hentry, hmem⟩ := List.mem_flatMap.mp hline
    split at hmem
    · exact (hentries entry hentry).2 line hmem
    · cases hmem

end Gathers

/-! ## Facts -/

theorem linesFor_append (first second : List (Node × List String)) (node : Node) :
    linesFor (first ++ second) node = linesFor first node ++ linesFor second node :=
  List.flatMap_append

theorem linesFor_rows {α : Type} (nodeOf : α → Node) (line : α → String) (rows : List α)
    (node : Node) :
    linesFor (rows.map fun r => (nodeOf r, [line r])) node =
      (rows.filter (nodeOf · == node)).map line := by
  induction rows with
  | nil => rfl
  | cons r rows ih =>
      rw [List.map_cons, ← List.singleton_append, linesFor_append, ih, List.filter_cons]
      by_cases hr : nodeOf r = node
      · simp [linesFor, hr]
      · simp [linesFor, hr]

namespace Facts

/-- An edge starts or ends at the node. -/
def OnEdge (f : Facts) (node : Node) : Prop :=
  ∃ e ∈ f.edges, e.source = node ∨ e.target = node

/-- The node occurs in an edge or in a row of the relations that are listed by node. -/
def Mentions (f : Facts) (node : Node) : Prop :=
  f.OnEdge node ∨ (∃ r ∈ f.accesses, r.node = node) ∨ (∃ r ∈ f.invalidations, r.node = node) ∨
    (∃ r ∈ f.clears, r.node = node) ∨ ∃ r ∈ f.subsets, r.node = node

/-- The rows about a node in the relations that are listed by node. -/
def about (f : Facts) (node : Node) : Facts where
  accesses := f.accesses.filter (·.node == node)
  clears := f.clears.filter (·.node == node)
  subsets := f.subsets.filter (·.node == node)
  invalidations := f.invalidations.filter (·.node == node)

/-- The rows of these relations as lines, one relation after the other. -/
def lines (f : Facts) : List String :=
  f.accesses.map (·.line .accessOrigin) ++ f.invalidations.map (·.line .invalidateOrigin) ++
    f.clears.map (·.line .clearOrigin) ++ f.subsets.map (·.line)

theorem mem_entries_node (f : Facts) (node : Node) :
    node ∈ f.entries.map Prod.fst ↔ f.Mentions node := by
  have hnodes : f.entries.map Prod.fst =
      f.edges.flatMap (fun e => [e.source, e.target]) ++ f.accesses.map (·.node) ++
        f.invalidations.map (·.node) ++ f.clears.map (·.node) ++ f.subsets.map (·.node) := by
    simp [entries, List.map_flatMap, Function.comp_def]
  simp [hnodes, Mentions, OnEdge, eq_comm]

theorem linesFor_entries (f : Facts) (node : Node) :
    linesFor f.entries node = (f.about node).lines := by
  have hedges : linesFor (f.edges.flatMap fun e => [(e.source, []), (e.target, [])]) node = [] := by
    simp [linesFor, List.flatMap_assoc]
  simp only [entries, linesFor_append, hedges, List.nil_append]
  rw [linesFor_rows OriginAt.node, linesFor_rows OriginAt.node, linesFor_rows OriginAt.node,
    linesFor_rows Subset.node]
  rfl

theorem flatMap_entries (f : Facts) : f.entries.flatMap Prod.snd = f.lines := by
  have hedges : (f.edges.flatMap fun e => [(e.source, []), (e.target, [])]).flatMap Prod.snd =
      ([] : List String) := by
    simp [List.flatMap_assoc]
  simp only [entries, List.flatMap_append, hedges, List.nil_append, List.flatMap_map,
    ← List.map_eq_flatMap]
  rfl

theorem mentions_iff (f : Facts) (node : Node) :
    f.Mentions node ↔ f.OnEdge node ∨ (f.about node).lines ≠ [] := by
  simp only [Mentions, lines, about, ne_eq, List.append_eq_nil_iff, List.map_eq_nil_iff,
    List.filter_eq_nil_iff, beq_iff_eq]
  grind

theorem lines_of_mem_perNode {f : Facts} {g : NodeGroup} (hg : g ∈ f.perNode) :
    g.lines = (f.about g.node).lines := by
  have hgathers := Gathers.perNode f
  rw [← hgathers.ordered.linesAt_of_mem hg, hgathers.lines, linesFor_entries]

theorem mem_perNode_node (f : Facts) (node : Node) :
    node ∈ f.perNode.map NodeGroup.node ↔ f.Mentions node := by
  rw [(Gathers.perNode f).nodes, mem_entries_node]

theorem map_node_perNode (f : Facts) :
    (f.perNode.map NodeGroup.node).map (fun node => ⟨node, (f.about node).lines⟩) = f.perNode := by
  rw [List.map_map]
  refine (List.map_congr_left fun g hg => ?_).trans (List.map_id f.perNode)
  show (⟨g.node, (f.about g.node).lines⟩ : NodeGroup) = g
  rw [← lines_of_mem_perNode hg]

/-- Grouping depends on the nodes of the edges and on the rows of each node, and on nothing else. -/
theorem perNode_congr {f f' : Facts} (hrows : ∀ node, f.about node = f'.about node)
    (hedges : ∀ node, f.OnEdge node ↔ f'.OnEdge node) : f.perNode = f'.perNode := by
  have hnodes : f.perNode.map NodeGroup.node = f'.perNode.map NodeGroup.node := by
    refine List.Pairwise.eq_of_mem_iff (List.pairwise_map.mpr (Gathers.perNode f).ordered)
      (List.pairwise_map.mpr (Gathers.perNode f').ordered) fun node => ?_
    rw [mem_perNode_node, mem_perNode_node, mentions_iff, mentions_iff, hrows, hedges]
  rw [← map_node_perNode f, ← map_node_perNode f', hnodes]
  refine List.map_congr_left fun node _ => ?_
  rw [hrows]

end Facts

/-- The groups are those of the nodes that occur, in the order of their code points and each once,
and a group has the lines of its node: accesses, invalidations, clears and subsets, each in the
order of its rows. No line is lost or repeated, and rows of different nodes may change places. -/
theorem perNode_exact (f : Facts) :
    f.perNode.Pairwise (fun g h => List.Lex (· < ·) (codePoints g.node) (codePoints h.node)) ∧
    (∀ node, (∃ g ∈ f.perNode, g.node = node) ↔ f.Mentions node) ∧
    (∀ g ∈ f.perNode, g.lines = (f.about g.node).lines) ∧
    (f.perNode.flatMap (·.lines)).length =
      f.accesses.length + f.invalidations.length + f.clears.length + f.subsets.length ∧
    ∀ f' : Facts, (∀ node, f.about node = f'.about node) →
      (∀ node, f.OnEdge node ↔ f'.OnEdge node) → f.perNode = f'.perNode := by
  have hgathers := Gathers.perNode f
  refine ⟨hgathers.ordered.imp codePoints_lex, fun node => ?_,
    fun g hg => Facts.lines_of_mem_perNode hg, ?_, fun f' => Facts.perNode_congr⟩
  · rw [← Facts.mem_perNode_node, List.mem_map]
  · rw [hgathers.size, Facts.flatMap_entries]
    simp only [Facts.lines, List.length_append, List.length_map]

/-- Facts of the node `b`, beside accesses and edges of any nodes. -/
def Facts.alternating (accesses : List OriginAt) (edges : List Edge) : Facts where
  accesses := accesses
  edges := edges
  clears := [⟨"'1", "b"⟩]
  subsets := [⟨"'1", "'2", "b"⟩]

/-- Rows of different nodes change places and edges run otherwise between the same nodes; the groups
stay. -/
theorem perNode_exact_alternating :
    let f := Facts.alternating [⟨"'2", "b"⟩, ⟨"'1", "a"⟩, ⟨"'1", "b"⟩] [⟨"B", "b"⟩, ⟨"B", "a"⟩]
    let f' := Facts.alternating [⟨"'1", "a"⟩, ⟨"'2", "b"⟩, ⟨"'1", "b"⟩] [⟨"a", "b"⟩, ⟨"b", "B"⟩]
    f.perNode = f'.perNode ∧
      f.perNode = [⟨"B", []⟩, ⟨"a", ["access_origin('1)"]⟩, ⟨"b", ["access_origin('2)",
        "access_origin('1)", "clear_origin('1)", "introduce_subset('1, '2)"]⟩] := by
  intro f f'
  obtain ⟨_, _, _, _, hcongr⟩ := perNode_exact f
  refine ⟨hcongr f' ?_ ?_, by decide⟩
  · intro node
    by_cases ha : node = "a"
    · subst ha
      decide
    · simp [f, f', Facts.about, Facts.alternating, List.filter_cons, Ne.symm ha]
  · intro node
    simp only [Facts.OnEdge, f, f', Facts.alternating, List.mem_cons, List.not_mem_nil, or_false,
      exists_eq_or_imp, exists_eq_left]
    grind

end OriginFacts
