import OriginFacts.Proofs.Emission.Declared
import OriginFacts.Proofs.Resolve

/-!
How the rows of different relations hang together: nodes have texts, origins that flow are cleared
or accessed where they flow, and a loan that ends was issued by a statement of the program.
-/

namespace OriginFacts

/-! ## Rows of the relations -/

theorem mem_originRows {points : List Point} {origins : Point → List Origin} {node : Point → Node}
    {r : OriginAt} :
    r ∈ (points.flatMap fun pt => (origins pt).map fun o => ⟨o, node pt⟩) ↔
      ∃ pt ∈ points, r.origin ∈ origins pt ∧ r.node = node pt := by
  simp only [List.mem_flatMap, List.mem_map]
  constructor
  · rintro ⟨pt, hpt, o, ho, rfl⟩
    exact ⟨pt, hpt, ho, rfl⟩
  · rintro ⟨pt, hpt, ho, hnode⟩
    exact ⟨pt, hpt, r.origin, ho, by rw [← hnode]⟩

namespace Answers.Describes

variable {a : Answers} {p : Program} {f : Facts}

theorem mem_clears (h : a.Describes p f) {r : OriginAt} :
    r ∈ f.clears ↔ ∃ pt ∈ p.points, r.origin ∈ a.cleared pt.statement ∧ r.node = a.nodeOf pt := by
  rw [h.clears, mem_originRows]

theorem mem_accesses (h : a.Describes p f) {r : OriginAt} :
    r ∈ f.accesses ↔ ∃ pt ∈ p.points, r.origin ∈ a.accessed pt.statement ∧ r.node = a.nodeOf pt := by
  rw [h.accesses, mem_originRows]

theorem mem_invalidations (h : a.Describes p f) {r : OriginAt} :
    r ∈ f.invalidations ↔
      ∃ pt ∈ p.points, r.origin ∈ a.ended p pt.statement ∧ r.node = a.nodeOf pt := by
  rw [h.invalidations, mem_originRows]

theorem mem_subsets (h : a.Describes p f) {r : Subset} :
    r ∈ f.subsets ↔
      ∃ pt ∈ p.points, (r.source, r.target) ∈ a.related pt.statement ∧ r.node = a.nodeOf pt := by
  simp only [h.subsets, List.mem_flatMap, List.mem_map]
  constructor
  · rintro ⟨pt, hpt, ⟨o, into⟩, ho, rfl⟩
    exact ⟨pt, hpt, ho, rfl⟩
  · rintro ⟨pt, hpt, ho, hnode⟩
    exact ⟨pt, hpt, _, ho, by rw [← hnode]⟩

/-- Every point has a text. -/
theorem exists_text (h : a.Describes p f) {pt : Point} (hpt : pt ∈ p.points) {node : Node}
    (hnode : node = a.nodeOf pt) : ∃ t ∈ f.texts, t.node = node := by
  rw [h.texts]
  exact ⟨_, List.mem_map_of_mem hpt, hnode.symm⟩

end Answers.Describes

/-! ## Origins of a statement -/

section

variable {x : Extraction} {a : Answers} {s : Statement}

theorem Answers.mem_cleared_of_borrow {m : Mutability} {o : Origin} {place : Place}
    (h : s.expr = .access (.borrow m o) place) : o ∈ a.cleared s := by
  refine List.mem_append_right _ ?_
  rw [h]
  exact List.mem_singleton_self o

theorem Answers.exists_borrow_of_mem_ended {p : Program} {o : Origin} (h : o ∈ a.ended p s) :
    ∃ t ∈ p.statements, ∃ m place, t.expr = .access (.borrow m o) place := by
  -- Both kinds of loans are those of some place.
  have hplace : ∃ place, o ∈ p.borrowsOf place := by
    rcases List.mem_append.mp h with htarget | hleaf
    · unfold endedByTarget at htarget
      split at htarget
      · split at htarget
        · cases htarget
        · exact ⟨_, htarget⟩
      · cases htarget
    · obtain ⟨l, _, hl⟩ := List.mem_flatMap.mp hleaf
      exact ⟨l.place, hl⟩
  obtain ⟨place, hplace⟩ := hplace
  obtain ⟨t, ht, hborrow⟩ := List.mem_filterMap.mp hplace
  obtain ⟨m, hm⟩ := Expr.borrowOf?_eq_some_iff.mp hborrow
  exact ⟨t, ht, m, place, hm⟩

theorem Answers.mem_related {o into : Origin} (h : (o, into) ∈ a.related s) :
    ∃ place, s.target = some place ∧ (a.ty place).refOrigin? = some into ∧
      a.valueOrigin? s.expr = some o := by
  unfold related at h
  split at h
  · next place hplace =>
    unfold flow at h
    split at h
    · next o' into' ho hinto =>
      cases List.mem_singleton.mp h
      exact ⟨place, hplace, hinto, ho⟩
    · cases h
  · cases h

/-- The origin that a value flows into is cleared with the target. -/
theorem Extraction.AnsweredBy.related_target (h : x.AnsweredBy a) (hs : s ∈ x.program.statements)
    {o into : Origin} (hrelated : (o, into) ∈ a.related s) : into ∈ a.cleared s := by
  obtain ⟨place, hplace, hinto, _⟩ := Answers.mem_related hrelated
  refine List.mem_append_left _ ?_
  simp only [Answers.overwritten, hplace]
  exact Program.refOrigin?_mem_of_resolve (h.target s hs place hplace) hinto

/-- The origin of a value is issued anew by a borrow, or in use by a copy or a move. -/
theorem Extraction.AnsweredBy.related_source (h : x.AnsweredBy a) (hs : s ∈ x.program.statements)
    {o into : Origin} (hrelated : (o, into) ∈ a.related s) :
    o ∈ a.cleared s ∨ o ∈ a.accessed s := by
  obtain ⟨_, _, _, ho⟩ := Answers.mem_related hrelated
  -- A copied or moved place is the only leaf of its expression.
  have hread : ∀ kind place, s.expr = .access kind place → kind.usesPlace = true →
      (a.ty place).refOrigin? = some o → o ∈ a.accessed s := by
    intro kind place hexpr huses ho
    have hleaf : ⟨kind, place⟩ ∈ s.expr.leaves := by rw [hexpr]; exact List.mem_singleton_self _
    have hresolve := h.leaf s hs ⟨kind, place⟩ hleaf huses
    refine List.mem_flatMap.mpr ⟨⟨kind, place⟩, List.mem_filter.mpr ⟨hleaf, huses⟩, ?_⟩
    exact Program.refOrigin?_mem_of_resolve hresolve ho
  cases hexpr : s.expr with
  | access kind place =>
      rw [hexpr] at ho
      cases kind with
      | borrow m o' =>
          cases ho
          exact Or.inl (Answers.mem_cleared_of_borrow hexpr)
      | copy => exact Or.inr (hread .copy place hexpr rfl ho)
      | move => exact Or.inr (hread .move place hexpr rfl ho)
  | call _ _ => rw [hexpr] at ho; cases ho
  | number _ => rw [hexpr] at ho; cases ho
  | unit => rw [hexpr] at ho; cases ho

end

/-! ## Relations against each other -/

/-- The references between relations: a node with an origin has a text; an origin that flows into
another one is cleared or accessed where it flows, and the other one is cleared there; an origin
that is invalidated was issued by some statement, which clears it at its own node. -/
structure Facts.Coherent (f : Facts) (x : Extraction) : Prop where
  access_text : ∀ r ∈ f.accesses, ∃ t ∈ f.texts, t.node = r.node
  clear_text : ∀ r ∈ f.clears, ∃ t ∈ f.texts, t.node = r.node
  invalidation_text : ∀ r ∈ f.invalidations, ∃ t ∈ f.texts, t.node = r.node
  subset_text : ∀ r ∈ f.subsets, ∃ t ∈ f.texts, t.node = r.node
  subset_target : ∀ r ∈ f.subsets, ⟨r.target, r.node⟩ ∈ f.clears
  subset_source : ∀ r ∈ f.subsets, ⟨r.source, r.node⟩ ∈ f.clears ∨ ⟨r.source, r.node⟩ ∈ f.accesses
  invalidation_issued : ∀ r ∈ f.invalidations,
    ∃ b ∈ x.program.blocks, ∃ (i : Nat) (s : Statement), b.statements[i]? = some s ∧
      (∃ m place, s.expr = .access (.borrow m r.origin) place) ∧
      ∃ node, x.program.nodeAt x.naming b.name i = .ok node ∧ ⟨r.origin, node⟩ ∈ f.clears

/-- Every successful emission is coherent. -/
theorem facts_coherent {x : Extraction} {f : Facts} (h : x.facts = .ok f) : f.Coherent x := by
  obtain ⟨hanswers, rfl⟩ := Extraction.facts_eq_ok_iff.mp h
  have hrows := x.answers.describes_facts x.program
  have hstatement : ∀ pt ∈ x.program.points, pt.statement ∈ x.program.statements :=
    fun pt hpt => Program.mem_statements_iff.mpr ⟨pt, hpt, rfl⟩
  exact {
    access_text := by
      intro r hr
      obtain ⟨pt, hpt, _, hnode⟩ := hrows.mem_accesses.mp hr
      exact hrows.exists_text hpt hnode
    clear_text := by
      intro r hr
      obtain ⟨pt, hpt, _, hnode⟩ := hrows.mem_clears.mp hr
      exact hrows.exists_text hpt hnode
    invalidation_text := by
      intro r hr
      obtain ⟨pt, hpt, _, hnode⟩ := hrows.mem_invalidations.mp hr
      exact hrows.exists_text hpt hnode
    subset_text := by
      intro r hr
      obtain ⟨pt, hpt, _, hnode⟩ := hrows.mem_subsets.mp hr
      exact hrows.exists_text hpt hnode
    subset_target := by
      intro r hr
      obtain ⟨pt, hpt, hrelated, hnode⟩ := hrows.mem_subsets.mp hr
      have hinto := hanswers.related_target (hstatement pt hpt) hrelated
      exact hrows.mem_clears.mpr ⟨pt, hpt, hinto, hnode⟩
    subset_source := by
      intro r hr
      obtain ⟨pt, hpt, hrelated, hnode⟩ := hrows.mem_subsets.mp hr
      rcases hanswers.related_source (hstatement pt hpt) hrelated with ho | ho
      · exact Or.inl (hrows.mem_clears.mpr ⟨pt, hpt, ho, hnode⟩)
      · exact Or.inr (hrows.mem_accesses.mpr ⟨pt, hpt, ho, hnode⟩)
    invalidation_issued := by
      intro r hr
      obtain ⟨pt, _, hended, _⟩ := hrows.mem_invalidations.mp hr
      obtain ⟨s, hs, m, place, hborrow⟩ := Answers.exists_borrow_of_mem_ended hended
      -- The issuing statement stands at a point of its own, possibly far from the invalidation.
      obtain ⟨issuer, hissuer, rfl⟩ := Program.mem_statements_iff.mp hs
      obtain ⟨b, hb, hpoint⟩ := Program.mem_points.mp hissuer
      obtain ⟨hblock, hindex⟩ := Block.mem_points.mp hpoint
      refine ⟨b, hb, issuer.index, issuer.statement, hindex, ⟨m, place, hborrow⟩, ?_⟩
      refine ⟨x.answers.nodeOf issuer, hblock ▸ hanswers.nodeOf hissuer, ?_⟩
      exact hrows.mem_clears.mpr ⟨issuer, hissuer, Answers.mem_cleared_of_borrow hborrow, rfl⟩ }

theorem facts_coherent_sample :
    (Extraction.sample .letters).facts = .ok (Extraction.sampleFacts "a" "b") ∧
      (Extraction.sampleFacts "a" "b").Coherent (Extraction.sample .letters) :=
  ⟨Extraction.facts_sample_letters, facts_coherent Extraction.facts_sample_letters⟩

end OriginFacts
