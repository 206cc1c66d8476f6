import OriginFacts.Proofs.Facts.Grouping
import OriginFacts.Proofs.Text.Quoted

/-!
Listings read back. An entry shows a node, its text, its facts and its successors, and ends in one way
only, so equal listings show equal entries, whatever the texts look like.
-/

namespace OriginFacts

/-! ## Entries -/

/-- A name that separates from what stands around it in a listing. -/
def Node.Legible (node : Node) : Prop :=
  ' ' ∉ node.toList ∧ '\n' ∉ node.toList ∧ ':' ∉ node.toList

instance (node : Node) : Decidable (Node.Legible node) :=
  inferInstanceAs (Decidable (_ ∧ _ ∧ _))

/-- What a listing shows of a node. -/
structure ListingEntry where
  node : Node
  text : String
  lines : List String
  successors : List Node

namespace ListingEntry

def writeLines (lines : List String) : List Char :=
  lines.flatMap fun line => '\t' :: line.toList ++ ['\n']

def writeSuccessors (successors : List Node) : List Char :=
  successors.flatMap fun node => ' ' :: node.toList

def write (e : ListingEntry) : List Char :=
  e.node.toList ++ ':' :: ' ' :: (Quoted.encode Text.isPrintable e.text.toList ++
    ' ' :: '\x7b' :: '\n' :: (writeLines e.lines ++
      '\t' :: 'g' :: 'o' :: 't' :: 'o' :: (writeSuccessors e.successors ++
        '\n' :: '\x7d' :: '\n' :: [])))

/-- A fact takes one line, and is not taken for the successors. -/
def LegibleLine (line : String) : Prop :=
  '\n' ∉ line.toList ∧ line.toList.head? ≠ some 'g'

structure Legible (e : ListingEntry) : Prop where
  node : Node.Legible e.node
  lines : ∀ line ∈ e.lines, LegibleLine line
  successors : ∀ node ∈ e.successors, Node.Legible node

theorem delimited_line : Delimited LegibleLine fun line => '\t' :: line.toList ++ ['\n'] := by
  intro line other r s hline hother heq
  simp only [List.cons_append, List.append_assoc, List.nil_append] at heq
  obtain ⟨htext, hrest⟩ := ended_inj hline.1 hother.1 (List.cons.inj heq).2
  exact ⟨String.toList_inj.mp htext, hrest⟩

theorem line_ne_goto {line : String} (h : LegibleLine line) (rest after : List Char) :
    '\t' :: line.toList ++ ['\n'] ++ after ≠ '\t' :: 'g' :: rest := by
  intro heq
  have hhead := h.2
  cases hline : line.toList with
  | nil => simp [hline] at heq
  | cons c cs => simp_all

theorem splitOn_writeSuccessors {successors : List Node}
    (h : ∀ node ∈ successors, Node.Legible node) :
    (writeSuccessors successors).splitOn ' ' = ("" :: successors).map String.toList := by
  have hjoin : writeSuccessors successors =
      [' '].intercalate (("" :: successors).map String.toList) := by
    rw [intercalate_map_cons]
    rfl
  rw [hjoin]
  refine List.splitOn_intercalate ' ' ?_ (List.cons_ne_nil _ _)
  rw [List.forall_mem_map]
  exact List.forall_mem_cons.mpr ⟨by simp, fun node hnode => (h node hnode).1⟩

theorem writeSuccessors_inj {ns ms : List Node} (hns : ∀ node ∈ ns, Node.Legible node)
    (hms : ∀ node ∈ ms, Node.Legible node) (h : writeSuccessors ns = writeSuccessors ms) :
    ns = ms := by
  have hparts := congrArg (List.splitOn ' ') h
  rw [splitOn_writeSuccessors hns, splitOn_writeSuccessors hms] at hparts
  exact (List.map_inj_right fun _ _ => String.toList_inj.mp).mp (List.cons.inj hparts).2

theorem feed_notMem_writeSuccessors {successors : List Node}
    (h : ∀ node ∈ successors, Node.Legible node) : '\n' ∉ writeSuccessors successors := by
  intro hmem
  obtain ⟨node, hnode, hfeed⟩ := List.mem_flatMap.mp hmem
  rcases List.mem_cons.mp hfeed with hblank | hfeed
  · cases hblank
  · exact (h node hnode).2.1 hfeed

theorem delimited_write : Delimited Legible write := by
  intro a b r s ha hb heq
  simp only [write, List.append_assoc, List.cons_append, List.nil_append] at heq
  -- The parts are told apart in the order they stand in: the node ends at its colon, the text at its
  -- closing quote, the facts where no further one starts, the successors at their line feed.
  obtain ⟨hnode, heq⟩ := ended_inj ha.node.2.2 hb.node.2.2 heq
  obtain ⟨htext, heq⟩ :=
    Quoted.delimited_encode Text.isPrintable trivial trivial (List.cons.inj heq).2
  simp only [List.cons.injEq, true_and] at heq
  obtain ⟨hlines, heq⟩ := delimited_line.flatMap_inj ha.lines hb.lines
    (fun line after hline => line_ne_goto hline _ after)
    (fun line after hline => line_ne_goto hline _ after) heq
  simp only [List.cons.injEq, true_and] at heq
  obtain ⟨hsuccessors, heq⟩ := ended_inj (feed_notMem_writeSuccessors ha.successors)
    (feed_notMem_writeSuccessors hb.successors) heq
  simp only [List.cons.injEq, true_and] at heq
  refine ⟨?_, heq⟩
  cases a
  cases b
  simp only [mk.injEq]
  exact ⟨String.toList_inj.mp hnode, String.toList_inj.mp htext, hlines,
    writeSuccessors_inj ha.successors hb.successors hsuccessors⟩

theorem write_ne_nil (e : ListingEntry) : e.write ≠ [] :=
  List.append_ne_nil_of_right_ne_nil _ (List.cons_ne_nil _ _)

end ListingEntry

/-! ## Listings -/

namespace Facts

/-- Names that can stand in a listing: nodes without blanks, line feeds and colons, and origins
without line feeds. The texts may be any, and so may a node that has a text and no fact. -/
structure Legible (f : Facts) : Prop where
  edges : ∀ e ∈ f.edges, Node.Legible e.source ∧ Node.Legible e.target
  rows : ∀ r ∈ f.accesses ++ f.invalidations ++ f.clears,
    Node.Legible r.node ∧ '\n' ∉ r.origin.toList
  subsets : ∀ r ∈ f.subsets,
    Node.Legible r.node ∧ '\n' ∉ r.source.toList ∧ '\n' ∉ r.target.toList

def listingEntry (f : Facts) (g : NodeGroup) : ListingEntry :=
  ⟨g.node, f.textOf g.node, g.lines, f.successorsOf g.node⟩

theorem toList_renderGroup (f : Facts) (g : NodeGroup) :
    (f.renderGroup g).toList = (f.listingEntry g).write := by
  simp [renderGroup, listingEntry, ListingEntry.write, ListingEntry.writeLines,
    ListingEntry.writeSuccessors, String.toList_join, List.flatMap_map]

theorem toList_render (f : Facts) :
    f.render.toList =
      ['\n'].intercalate ((f.perNode.map f.listingEntry).map ListingEntry.write) := by
  simp [render, String.toList_intercalate, toList_renderGroup, Function.comp_def]

theorem legibleLine_originAt (relation : Relation) {r : OriginAt} (h : '\n' ∉ r.origin.toList) :
    ListingEntry.LegibleLine (r.line relation) := by
  cases relation <;> simp [ListingEntry.LegibleLine, OriginAt.line, Relation.name, h]

theorem legibleLine_subset {r : Subset} (hsource : '\n' ∉ r.source.toList)
    (htarget : '\n' ∉ r.target.toList) : ListingEntry.LegibleLine r.line := by
  simp [ListingEntry.LegibleLine, Subset.line, Relation.name, hsource, htarget]

namespace Legible

variable {f : Facts}

theorem entries (h : f.Legible) : ∀ e ∈ f.entries,
    Node.Legible e.1 ∧ ∀ line ∈ e.2, ListingEntry.LegibleLine line := by
  have hrow : ∀ relation, ∀ r ∈ f.accesses ++ f.invalidations ++ f.clears,
      Node.Legible r.node ∧ ∀ line ∈ [r.line relation], ListingEntry.LegibleLine line := by
    intro relation r hr
    obtain ⟨hnode, horigin⟩ := h.rows r hr
    exact ⟨hnode, List.forall_mem_singleton.mpr (legibleLine_originAt relation horigin)⟩
  intro e he
  simp only [Facts.entries, List.mem_append, List.mem_flatMap, List.mem_map] at he
  rcases he with (((⟨edge, hedge, he⟩ | ⟨r, hr, rfl⟩) | ⟨r, hr, rfl⟩) | ⟨r, hr, rfl⟩) | ⟨r, hr, rfl⟩
  · obtain ⟨hsource, htarget⟩ := h.edges edge hedge
    simp only [List.mem_cons, List.not_mem_nil, or_false] at he
    rcases he with rfl | rfl
    · exact ⟨hsource, List.forall_mem_nil _⟩
    · exact ⟨htarget, List.forall_mem_nil _⟩
  · exact hrow _ r (by simp [hr])
  · exact hrow _ r (by simp [hr])
  · exact hrow _ r (by simp [hr])
  · obtain ⟨hnode, hsource, htarget⟩ := h.subsets r hr
    exact ⟨hnode, List.forall_mem_singleton.mpr (legibleLine_subset hsource htarget)⟩

/-- Every entry of the listing tells where it ends. -/
theorem listingEntry (h : f.Legible) : ∀ e ∈ f.perNode.map f.listingEntry, e.Legible := by
  have hgroups := (Gathers.perNode f).forall_mem h.entries
  rw [List.forall_mem_map]
  intro g hg
  obtain ⟨hnode, hlines⟩ := hgroups g hg
  refine ⟨hnode, hlines, ?_⟩
  intro node hsuccessor
  obtain ⟨edge, hedge, rfl⟩ := List.mem_map.mp hsuccessor
  exact (h.edges edge (List.mem_filter.mp hedge).1).2

end Legible

theorem map_listingEntry_eq_iff {f g : Facts} :
    f.perNode.map f.listingEntry = g.perNode.map g.listingEntry ↔
      f.perNode = g.perNode ∧ ∀ group ∈ f.perNode,
        f.textOf group.node = g.textOf group.node ∧
          f.successorsOf group.node = g.successorsOf group.node := by
  constructor
  · intro h
    -- An entry holds the group it is made from.
    have hgroup : ∀ (f : Facts), (f.perNode.map f.listingEntry).map
        (fun e => (⟨e.node, e.lines⟩ : NodeGroup)) = f.perNode := by
      intro f
      rw [List.map_map]
      exact List.map_id _
    have hsame : f.perNode = g.perNode := by rw [← hgroup f, h, hgroup g]
    refine ⟨hsame, fun group hmem => ?_⟩
    rw [← hsame] at h
    have hentry := List.map_inj_left.mp h group hmem
    simp only [listingEntry, ListingEntry.mk.injEq, true_and] at hentry
    exact hentry
  · rintro ⟨hsame, hnodes⟩
    rw [← hsame]
    refine List.map_congr_left fun group hmem => ?_
    obtain ⟨htext, hsuccessors⟩ := hnodes group hmem
    rw [listingEntry, htext, hsuccessors]
    rfl

end Facts

/-- Equal listings mean equal facts, as far as a listing shows them: two fact bases with legible names
have the same listing exactly if they have the same groups in the same order, and each node in them
the same text and the same successors. -/
theorem render_eq_render_iff {f g : Facts} (hf : f.Legible) (hg : g.Legible) :
    f.render = g.render ↔
      f.perNode = g.perNode ∧ ∀ group ∈ f.perNode,
        f.textOf group.node = g.textOf group.node ∧
          f.successorsOf group.node = g.successorsOf group.node := by
  rw [← Facts.map_listingEntry_eq_iff, ← String.toList_inj, f.toList_render, g.toList_render]
  constructor
  · intro h
    exact ListingEntry.delimited_write.intercalate_inj ListingEntry.write_ne_nil ['\n']
      hf.listingEntry hg.listingEntry h
  · intro h
    rw [h]

/-- A statement whose text may look like the rest of a listing, and an origin that looks like a line
of successors. -/
def Facts.disguised (text : String) (clears : List OriginAt) : Facts where
  edges := [⟨"a", "b"⟩, ⟨"b", ""⟩]
  clears := clears
  texts := [⟨text, "a"⟩, ⟨"unseen", "not: listed"⟩]

theorem Facts.legible_disguised (text : String) {clears : List OriginAt}
    (h : ∀ r ∈ clears, Node.Legible r.node ∧ '\n' ∉ r.origin.toList) :
    (disguised text clears).Legible where
  edges := by simp only [disguised]; decide
  rows := h
  subsets := List.forall_mem_nil _

/-- The order of rows of different nodes does not show; the text does, whatever it looks like. -/
theorem render_eq_render_iff_disguised :
    let text := "f(\" \x7b\n\tgoto b\n\x7d\n\nb: \""
    let f := Facts.disguised text [⟨"'1", "a"⟩, ⟨")\tgoto", "b"⟩]
    f.render = (Facts.disguised text [⟨")\tgoto", "b"⟩, ⟨"'1", "a"⟩]).render ∧
      f.render ≠ (Facts.disguised "f(" [⟨"'1", "a"⟩, ⟨")\tgoto", "b"⟩]).render := by
  intro text f
  have hf : f.Legible := Facts.legible_disguised _ (by decide)
  constructor
  · refine (render_eq_render_iff hf (Facts.legible_disguised _ (by decide))).mpr ⟨?_, ?_⟩
    · decide
    · decide
  · intro heq
    have hnodes := ((render_eq_render_iff hf (Facts.legible_disguised _ (by decide))).mp heq).2
    have htext := hnodes ⟨"a", ["clear_origin('1)"]⟩ (by decide)
    exact absurd htext.1 (by decide)

end OriginFacts
