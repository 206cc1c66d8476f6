import OriginFacts.Facts.Emission

/-!
Scripts: an emission as a plain list of steps, each adding rows or failing. What a script does is
read off the list, so that an emission that follows one needs no look at its state: it ends as the
script ends and adds the rows of the script, whatever was there before.
-/

namespace OriginFacts

/-! ## Fact bases under concatenation -/

namespace Facts

@[ext]
theorem ext {f g : Facts} (accesses : f.accesses = g.accesses) (edges : f.edges = g.edges)
    (clears : f.clears = g.clears) (subsets : f.subsets = g.subsets)
    (invalidations : f.invalidations = g.invalidations) (texts : f.texts = g.texts) : f = g := by
  cases f; cases g; simp_all

@[simp] theorem append_accesses (f g : Facts) : (f ++ g).accesses = f.accesses ++ g.accesses := rfl
@[simp] theorem append_edges (f g : Facts) : (f ++ g).edges = f.edges ++ g.edges := rfl
@[simp] theorem append_clears (f g : Facts) : (f ++ g).clears = f.clears ++ g.clears := rfl
@[simp] theorem append_subsets (f g : Facts) : (f ++ g).subsets = f.subsets ++ g.subsets := rfl
@[simp] theorem append_texts (f g : Facts) : (f ++ g).texts = f.texts ++ g.texts := rfl

@[simp]
theorem append_invalidations (f g : Facts) :
    (f ++ g).invalidations = f.invalidations ++ g.invalidations := rfl

@[simp]
theorem append_empty (f : Facts) : f ++ ({} : Facts) = f := by
  ext1 <;> simp

@[simp]
theorem empty_append (f : Facts) : ({} : Facts) ++ f = f := by
  ext1 <;> simp

theorem append_assoc (f g h : Facts) : f ++ g ++ h = f ++ (g ++ h) := by
  ext1 <;> simp

/-- The rows of several fact bases, one base after the other. -/
def concat : List Facts → Facts
  | [] => {}
  | f :: fs => f ++ concat fs

@[simp]
theorem concat_append (fs gs : List Facts) : concat (fs ++ gs) = concat fs ++ concat gs := by
  induction fs with
  | nil => simp [concat]
  | cons f fs ih => simp [concat, ih, append_assoc]

/-- A relation of concatenated bases is the concatenation of the relations. -/
theorem concat_relation {α : Type} (relation : Facts → List α) (hnil : relation {} = [])
    (happend : ∀ f g, relation (f ++ g) = relation f ++ relation g) (fs : List Facts) :
    relation (concat fs) = fs.flatMap relation := by
  induction fs with
  | nil => exact hnil
  | cons f fs ih => simp [concat, happend, ih]

end Facts

/-! ## Scripts -/

/-- One step of an emission: rows to add, or a fault to stop at. -/
abbrev Step := Except Fault Facts

namespace Step

/-- The step of a lookup. It adds nothing, and fails where the lookup fails. -/
def check {α : Type} (lookup : Except Fault α) : Step :=
  lookup.map fun _ => {}

/-- The fault that a step stops at. -/
def fault? : Step → Option Fault
  | .ok _ => none
  | .error fault => some fault

/-- The rows of a step; a failing one has none. -/
def rows : Step → Facts
  | .ok rows => rows
  | .error _ => {}

@[simp] theorem fault?_ok (rows : Facts) : fault? (.ok rows) = none := rfl
@[simp] theorem fault?_error (fault : Fault) : fault? (.error fault) = some fault := rfl
@[simp] theorem rows_ok (f : Facts) : rows (.ok f) = f := rfl

@[simp]
theorem rows_check {α : Type} (lookup : Except Fault α) : (check lookup).rows = {} := by
  cases lookup <;> rfl

@[simp]
theorem fault?_check_ok {α : Type} (a : α) : (check (.ok a)).fault? = none := rfl

@[simp]
theorem fault?_check_error {α : Type} (fault : Fault) :
    (check (.error fault : Except Fault α)).fault? = some fault := rfl

theorem check_eq_error_iff {α : Type} {lookup : Except Fault α} {fault : Fault} :
    check lookup = .error fault ↔ lookup = .error fault := by
  cases lookup <;> simp [check, Except.map]

theorem fault?_check_eq_none_iff {α : Type} {lookup : Except Fault α} :
    (check lookup).fault? = none ↔ ∃ a, lookup = .ok a := by
  cases lookup <;> simp

end Step

/-- The steps of an emission in order. -/
abbrev Script := List Step

namespace Script

/-- The first fault of a script. -/
def firstFault (s : Script) : Option Fault :=
  s.findSome? Step.fault?

/-- How a script ends: at its first fault, if it has one. -/
def outcome (s : Script) : Except Fault Unit :=
  match s.firstFault with
  | none => .ok ()
  | some fault => .error fault

/-- The rows of all steps. -/
def allRows (s : Script) : Facts :=
  Facts.concat (s.map Step.rows)

/-- The rows that a script adds: those before its first fault. -/
def added : Script → Facts
  | [] => {}
  | .ok rows :: rest => rows ++ added rest
  | .error _ :: _ => {}

@[simp] theorem firstFault_nil : firstFault [] = none := rfl

@[simp]
theorem firstFault_cons (step : Step) (s : Script) :
    firstFault (step :: s) = step.fault?.or s.firstFault := by
  cases step <;> rfl

@[simp]
theorem firstFault_append (s t : Script) :
    (s ++ t).firstFault = s.firstFault.or t.firstFault := by
  simp [firstFault, List.findSome?_append]

theorem firstFault_eq_none_iff {s : Script} : s.firstFault = none ↔ ∀ step ∈ s, step.fault? = none := by
  simp [firstFault]

theorem firstFault_flatMap_eq_none_iff {α : Type} {xs : List α} {script : α → Script} :
    firstFault (xs.flatMap script) = none ↔ ∀ a ∈ xs, (script a).firstFault = none := by
  induction xs with
  | nil => simp
  | cons x xs ih => simp [ih]

theorem mem_of_firstFault_eq_some {s : Script} {fault : Fault} (h : s.firstFault = some fault) :
    .error fault ∈ s := by
  obtain ⟨step, hmem, hstep⟩ := List.exists_of_findSome?_eq_some h
  cases step with
  | ok rows => cases hstep
  | error fault' => cases hstep; exact hmem

/-- Scripts with the same first fault at each place have the same first fault as a whole. -/
theorem firstFault_flatMap_congr {α : Type} {xs : List α} {script script' : α → Script}
    (h : ∀ a ∈ xs, (script a).firstFault = (script' a).firstFault) :
    firstFault (xs.flatMap script) = firstFault (xs.flatMap script') := by
  induction xs with
  | nil => rfl
  | cons x xs ih =>
      simp only [List.flatMap_cons, firstFault_append]
      rw [h x (List.mem_cons_self ..), ih fun a ha => h a (List.mem_cons_of_mem _ ha)]

theorem outcome_eq_ok_iff {s : Script} : s.outcome = .ok () ↔ s.firstFault = none := by
  unfold outcome
  cases s.firstFault <;> simp

theorem outcome_eq_error_iff {s : Script} {fault : Fault} :
    s.outcome = .error fault ↔ s.firstFault = some fault := by
  unfold outcome
  cases s.firstFault <;> simp

@[simp]
theorem allRows_append (s t : Script) : (s ++ t).allRows = s.allRows ++ t.allRows := by
  simp [allRows]

@[simp] theorem allRows_nil : allRows [] = {} := rfl

@[simp]
theorem allRows_cons (step : Step) (s : Script) : allRows (step :: s) = step.rows ++ s.allRows := rfl

theorem allRows_flatMap {α : Type} (xs : List α) (script : α → Script) :
    allRows (xs.flatMap script) = Facts.concat (xs.map fun a => (script a).allRows) := by
  induction xs with
  | nil => rfl
  | cons x xs ih => simp [ih, Facts.concat]

/-- A script without a fault adds all its rows. -/
theorem added_of_firstFault_eq_none {s : Script} (h : s.firstFault = none) : s.added = s.allRows := by
  induction s with
  | nil => rfl
  | cons step s ih =>
      cases step with
      | ok rows => simp [added, ih h]
      | error fault => simp at h

theorem added_append_of_eq_none {s : Script} (h : s.firstFault = none) (t : Script) :
    (s ++ t).added = s.added ++ t.added := by
  induction s with
  | nil => simp [added]
  | cons step s ih =>
      cases step with
      | ok rows => simp [added, ih h, Facts.append_assoc]
      | error fault => simp at h

theorem added_append_of_eq_some {s : Script} {fault : Fault} (h : s.firstFault = some fault)
    (t : Script) : (s ++ t).added = s.added := by
  induction s with
  | nil => simp at h
  | cons step s ih =>
      cases step with
      | ok rows => simp [added, ih h]
      | error fault => rfl

end Script

/-! ## Emissions that follow a script -/

namespace Extraction

/-- The emission ends as the script does and adds the rows of the script, to any fact base. -/
def Follows (emission : Emit Unit) (s : Script) : Prop :=
  ∀ f, run emission f = (s.outcome, f ++ s.added)

theorem run_bind {α β : Type} (m : Emit α) (k : α → Emit β) (f : Facts) :
    run (m >>= k) f =
      match run m f with
      | (.ok a, g) => run (k a) g
      | (.error fault, g) => (.error fault, g) := by
  show (ExceptT.bind m k) f = _
  simp only [ExceptT.bind, ExceptT.mk, bind, StateT.bind, run, StateT.run, ExceptT.run]
  rcases m f with ⟨a | fault, g⟩ <;> rfl

theorem Follows.pure : Follows (Pure.pure ()) [] := by
  intro f
  show (Except.ok (), f) = (Except.ok (), f ++ {})
  rw [Facts.append_empty]

theorem Follows.add (rows : Facts) : Follows (Extraction.add rows) [.ok rows] := by
  intro f
  show (Except.ok (), f ++ rows) = (Except.ok (), f ++ (rows ++ {}))
  rw [Facts.append_empty]

/-- One emission behind another follows the scripts in turn. The second one is never reached if the
first one fails, so its script may be anything then. -/
theorem Follows.bind {m : Emit Unit} {k : Unit → Emit Unit} {s t : Script} (hm : Follows m s)
    (hk : Follows (k ()) t) : Follows (m >>= k) (s ++ t) := by
  intro f
  rw [run_bind, hm f]
  cases h : s.firstFault with
  | none =>
      have hok := Script.outcome_eq_ok_iff.mpr h
      have hend : (s ++ t).outcome = t.outcome := by simp [Script.outcome, h]
      simp only [hok, hend, hk (f ++ s.added), Script.added_append_of_eq_none h, Facts.append_assoc]
  | some fault =>
      have hend : (s ++ t).outcome = .error fault := by simp [Script.outcome, h]
      simp only [Script.outcome_eq_error_iff.mpr h, hend, Script.added_append_of_eq_some h]

/-- An emission behind a lookup follows a check and then its own script, which only has to be right
for the answer of the lookup. -/
theorem Follows.require {α : Type} {lookup : Except Fault α} {k : α → Emit Unit} {s : Script}
    (hk : ∀ a, lookup = .ok a → Follows (k a) s) :
    Follows (Extraction.require lookup >>= k) (.check lookup :: s) := by
  intro f
  rw [run_bind]
  cases lookup with
  | ok a =>
      show run (k a) f = (s.outcome, f ++ ({} ++ s.added))
      rw [hk a rfl f, Facts.empty_append]
  | error fault =>
      show (Except.error fault, f) = (Except.error fault, f ++ {})
      rw [Facts.append_empty]

/-- What a program without a fault in its script yields, and what it fails with otherwise. -/
theorem facts_of_follows {x : Extraction} {s : Script} (h : Follows x.emitProgram s) :
    x.facts = s.outcome.map fun _ => s.allRows := by
  unfold facts
  rw [h {}, Facts.empty_append]
  cases hf : s.firstFault with
  | none =>
      rw [Script.outcome_eq_ok_iff.mpr hf, Script.added_of_firstFault_eq_none hf]
      rfl
  | some fault => rw [Script.outcome_eq_error_iff.mpr hf]; rfl

end Extraction

end OriginFacts
