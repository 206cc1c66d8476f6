import Mathlib.Data.List.Perm.Basic
import OriginFacts.Proofs.Emission.Declared
import OriginFacts.Proofs.Emission.Outcome

/-!
Programs whose declarations and blocks stand in another order. Where names are declared once, a
lookup does not depend on the order; the rows of a block move with it, and the loans that end at a
point come from the whole program, so they change places among themselves.
-/

namespace OriginFacts

/-! ## Lookups by name -/

/-- Where no two elements have one key, the order does not matter to a search by key. -/
theorem find?_eq_of_perm {α : Type} {key : α → String} {xs ys : List α} (hperm : xs.Perm ys)
    (hkeys : (xs.map key).Nodup) (k : String) :
    xs.find? (key · == k) = ys.find? (key · == k) := by
  induction hperm with
  | nil => rfl
  | cons a _ ih =>
      have hrest := ih (List.nodup_cons.mp hkeys).2
      simp only [List.find?_cons, hrest]
  | swap a b l =>
      have hne : key b ≠ key a := fun h => (List.nodup_cons.mp hkeys).1 (h ▸ List.mem_cons_self ..)
      -- The two at the front can both be passed over, but not both be found.
      simp only [List.find?_cons]
      cases ha : key a == k with
      | false => rfl
      | true =>
          have hb : (key b == k) = false :=
            beq_eq_false_iff_ne.mpr fun hb => hne (hb.trans (beq_iff_eq.mp ha).symm)
          rw [hb]
  | trans hfirst _ ih₁ ih₂ => exact (ih₁ hkeys).trans (ih₂ ((hfirst.map key).nodup_iff.mp hkeys))

theorem find?_reverse_eq_of_perm {α : Type} {key : α → String} {xs ys : List α}
    (hperm : xs.Perm ys) (hkeys : (xs.map key).Nodup) (k : String) :
    xs.reverse.find? (key · == k) = ys.reverse.find? (key · == k) := by
  have hreversed := ((List.reverse_perm xs).map key).nodup_iff.mpr hkeys
  exact find?_eq_of_perm ((List.reverse_perm xs).trans (hperm.trans (List.reverse_perm ys).symm))
    hreversed k

/-! ## Programs -/

/-- The same variables, structs and blocks, each in any order. -/
structure Program.Reorders (p q : Program) : Prop where
  vars : p.vars.Perm q.vars
  structs : p.structs.Perm q.structs
  blocks : p.blocks.Perm q.blocks

namespace Program

variable {p q : Program}

/-- Resolving a place looks at the program only to find a variable or a struct. -/
theorem resolve_congr (hvars : ∀ name, Binding.tyOf? p.vars name = Binding.tyOf? q.vars name)
    (hstructs : ∀ name, p.struct? name = q.struct? name) (place : Place) :
    p.resolve place = q.resolve place := by
  have hfield : ∀ parent field, p.fieldTy parent field = q.fieldTy parent field := by
    intro parent field
    cases parent with
    | struct name args => simp only [fieldTy, hstructs]
    | _ => rfl
  have hwalk : ∀ fields ty origins, p.walk ty origins fields = q.walk ty origins fields := by
    intro fields
    induction fields with
    | nil => intro ty origins; rfl
    | cons field fields ih =>
        intro ty origins
        simp only [walk, hfield, ih]
  simp only [resolve, hvars, hwalk]

namespace Reorders

theorem resolve_eq (h : p.Reorders q) (hvars : (p.vars.map (·.name)).Nodup)
    (hstructs : (p.structs.map (·.name)).Nodup) (place : Place) :
    p.resolve place = q.resolve place := by
  refine resolve_congr (fun name => ?_) (fun name => ?_) place
  · rw [Binding.tyOf?, Binding.tyOf?, find?_reverse_eq_of_perm h.vars hvars]
  · exact find?_reverse_eq_of_perm h.structs hstructs name

theorem points (h : p.Reorders q) : p.points.Perm q.points :=
  h.blocks.flatMap_right _

theorem statements (h : p.Reorders q) : p.statements.Perm q.statements :=
  h.blocks.flatMap_right _

theorem borrowsOf (h : p.Reorders q) (place : Place) :
    (p.borrowsOf place).Perm (q.borrowsOf place) :=
  h.statements.filterMap _

/-- The loans that end at a statement are the same, whatever the order they were found in. -/
theorem ended (h : p.Reorders q) (a : Answers) (s : Statement) :
    (a.ended p s).Perm (a.ended q s) := by
  refine List.Perm.append ?_ (List.Perm.flatMap_left _ fun l _ => h.borrowsOf l.place)
  unfold Answers.endedByTarget
  split
  · split
    · exact .refl _
    · exact h.borrowsOf _
  · exact .refl _

end Reorders

end Program

/-! ## Facts -/

/-- The same rows with the same multiplicities in each of the six relations. -/
structure Facts.SameRows (f g : Facts) : Prop where
  accesses : f.accesses.Perm g.accesses
  edges : f.edges.Perm g.edges
  clears : f.clears.Perm g.clears
  subsets : f.subsets.Perm g.subsets
  invalidations : f.invalidations.Perm g.invalidations
  texts : f.texts.Perm g.texts

/-- Under the same answers, a program in another order declares the same rows. -/
theorem Program.Reorders.sameRows {p q : Program} (h : p.Reorders q) {a : Answers} {f g : Facts}
    (hf : a.Describes p f) (hg : a.Describes q g) : f.SameRows g where
  accesses := by
    rw [hf.accesses, hg.accesses]
    exact h.points.flatMap_right _
  edges := by
    rw [hf.edges, hg.edges]
    exact h.blocks.flatMap_right _
  clears := by
    rw [hf.clears, hg.clears]
    exact h.points.flatMap_right _
  subsets := by
    rw [hf.subsets, hg.subsets]
    exact h.points.flatMap_right _
  invalidations := by
    rw [hf.invalidations, hg.invalidations]
    exact h.points.flatMap fun pt _ => (h.ended a pt.statement).map _
  texts := by
    rw [hf.texts, hg.texts]
    exact h.points.map _

namespace Extraction

variable {p q : Program} {source : ByteArray}

theorem exists_verbose_facts_iff :
    (∃ f, facts ⟨p, source, .verbose⟩ = .ok f) ↔
      ∀ s ∈ p.statements, (statementChecks ⟨p, source, .verbose⟩ s).firstFault = none := by
  rw [exists_facts_iff, firstFault_script_of_verbose rfl, Script.firstFault_flatMap_eq_none_iff]

theorem statementChecks_congr (h : ∀ place, p.resolve place = q.resolve place) (s : Statement) :
    statementChecks ⟨p, source, .verbose⟩ s = statementChecks ⟨q, source, .verbose⟩ s := by
  simp only [statementChecks, h]

theorem answers_congr (h : ∀ place, p.resolve place = q.resolve place) :
    answers ⟨p, source, .verbose⟩ = answers ⟨q, source, .verbose⟩ := by
  simp only [answers, h]
  rfl

end Extraction

/-- The order of declarations does not matter. Where variables and structs are declared once, a
program and the program with its variables, structs and blocks in another order both have facts or
both have none, and the facts have the same rows with the same multiplicities. Names of blocks may
repeat. -/
theorem verbose_facts_reordered {p q : Program} (h : p.Reorders q)
    (hvars : (p.vars.map (·.name)).Nodup) (hstructs : (p.structs.map (·.name)).Nodup)
    (source : ByteArray) :
    ((∃ f, Extraction.facts ⟨p, source, .verbose⟩ = .ok f) ↔
      ∃ g, Extraction.facts ⟨q, source, .verbose⟩ = .ok g) ∧
    ∀ f g, Extraction.facts ⟨p, source, .verbose⟩ = .ok f →
      Extraction.facts ⟨q, source, .verbose⟩ = .ok g → f.SameRows g := by
  have hresolve := h.resolve_eq hvars hstructs
  constructor
  · simp only [Extraction.exists_verbose_facts_iff, Extraction.statementChecks_congr hresolve,
      h.statements.mem_iff]
  · intro f g hf hg
    obtain ⟨_, rfl⟩ := Extraction.facts_eq_ok_iff.mp hf
    obtain ⟨_, rfl⟩ := Extraction.facts_eq_ok_iff.mp hg
    -- Only the answers look places up; with these equal, the order alone is left.
    rw [Extraction.answers_congr hresolve]
    exact h.sameRows (Answers.describes_facts _ p) (Answers.describes_facts _ q)

/-- Two borrows of `x` in different blocks, and a statement that ends both loans and reads a field of
a field. -/
def Program.scattered : Program where
  vars := [⟨"x", .i32⟩, ⟨"v", .struct "S" [.origin "'s", .ty (.ref .shared "'t" .i32)]⟩]
  structs := [
    ⟨"S", [.origin "'o", .ty "T"], [⟨"f", .struct "R" []⟩]⟩,
    ⟨"R", [], [⟨"g", .i32⟩]⟩]
  blocks := [
    ⟨"bb0", [⟨none, .access (.borrow .shared "'1") ⟨false, "x", []⟩, ⟨0, 2⟩⟩], ["bb1"]⟩,
    ⟨"bb1", [
      ⟨none, .access (.borrow .mutable "'2") ⟨false, "x", []⟩, ⟨2, 4⟩⟩,
      ⟨some ⟨false, "x", []⟩, .access .copy ⟨false, "v", ["f", "g"]⟩, ⟨4, 6⟩⟩], ["bb0", "bb1"]⟩]

def Program.scatteredBack : Program where
  vars := scattered.vars.reverse
  structs := scattered.structs.reverse
  blocks := scattered.blocks.reverse

theorem Program.scattered_reorders : scattered.Reorders scatteredBack where
  vars := (List.reverse_perm _).symm
  structs := (List.reverse_perm _).symm
  blocks := (List.reverse_perm _).symm

theorem verbose_facts_reordered_scattered :
    ∃ f g, Extraction.facts ⟨.scattered, "p;q;r;".toUTF8, .verbose⟩ = .ok f ∧
      Extraction.facts ⟨.scatteredBack, "p;q;r;".toUTF8, .verbose⟩ = .ok g ∧ f.SameRows g ∧
      f.invalidations.map (·.origin) = ["'1", "'2", "'1", "'2"] ∧
      g.invalidations.map (·.origin) = ["'2", "'1", "'2", "'1"] := by
  have hboth := verbose_facts_reordered Program.scattered_reorders (by decide) (by decide)
    "p;q;r;".toUTF8
  have hf : ∃ f, Extraction.facts ⟨.scattered, "p;q;r;".toUTF8, .verbose⟩ = .ok f ∧
      f.invalidations.map (·.origin) = ["'1", "'2", "'1", "'2"] := ⟨_, rfl, rfl⟩
  have hg : ∃ g, Extraction.facts ⟨.scatteredBack, "p;q;r;".toUTF8, .verbose⟩ = .ok g ∧
      g.invalidations.map (·.origin) = ["'2", "'1", "'2", "'1"] := ⟨_, rfl, rfl⟩
  obtain ⟨f, hf, hforder⟩ := hf
  obtain ⟨g, hg, hgorder⟩ := hg
  exact ⟨f, g, hf, hg, hboth.2 f g hf hg, hforder, hgorder⟩

end OriginFacts
