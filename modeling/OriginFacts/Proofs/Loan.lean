import Mathlib.Logic.ExistsUnique
import OriginFacts.Loan

/-!
The loans of a program by place: an index that is filled in program order loses no loan, repeats
none, and keeps the order under each place.
-/

namespace OriginFacts

/-! ## Filling an index -/

namespace LoanIndex

theorem lookup_insert (place q : Place) (loan : Loan) (entries : List (Place × List Loan)) :
    ((insert place loan entries).lookup q).getD [] =
      (entries.lookup q).getD [] ++ if place = q then [loan] else [] := by
  induction entries with
  | nil =>
      by_cases hplace : place = q
      · simp [insert, hplace]
      · have hne : (q == place) = false := by simpa using Ne.symm hplace
        simp [insert, List.lookup_cons, hne, hplace]
  | cons entry entries ih =>
      obtain ⟨borrowed, loans⟩ := entry
      unfold insert
      by_cases hq : q = borrowed
      · subst hq
        by_cases hplace : place = q
        · simp [hplace]
        · simp [hplace, Ne.symm hplace]
      · have hne : (q == borrowed) = false := by simpa using hq
        split
        · next hborrowed =>
          have hplace : place ≠ q := fun h => hq (h.symm.trans hborrowed.symm)
          simp [List.lookup_cons, hne, hplace]
        · simp only [List.lookup_cons, hne, ih]

@[simp]
theorem loansOf_add (index : LoanIndex) (place q : Place) (loan : Loan) :
    (index.add place loan).loansOf q = index.loansOf q ++ if place = q then [loan] else [] :=
  lookup_insert place q loan index.entries

theorem length_insert (place : Place) (loan : Loan) (entries : List (Place × List Loan)) :
    ((insert place loan entries).flatMap (·.2)).length = (entries.flatMap (·.2)).length + 1 := by
  induction entries with
  | nil => rfl
  | cons entry entries ih =>
      unfold insert
      split
      · simp only [List.flatMap_cons, List.length_append, List.length_singleton]
        omega
      · simp only [List.flatMap_cons, List.length_append, ih]
        omega

@[simp]
theorem size_add (index : LoanIndex) (place : Place) (loan : Loan) :
    (index.add place loan).size = index.size + 1 :=
  length_insert place loan index.entries

theorem loansOf_foldl (added : List (Place × Loan)) (index : LoanIndex) (q : Place) :
    (added.foldl (fun index entry => index.add entry.1 entry.2) index).loansOf q =
      index.loansOf q ++
        added.filterMap fun entry => if entry.1 = q then some entry.2 else none := by
  induction added generalizing index with
  | nil => simp
  | cons entry added ih =>
      rw [List.foldl_cons, ih, loansOf_add, List.filterMap_cons]
      split <;> simp_all

theorem size_foldl (added : List (Place × Loan)) (index : LoanIndex) :
    (added.foldl (fun index entry => index.add entry.1 entry.2) index).size =
      index.size + added.length := by
  induction added generalizing index with
  | nil => rfl
  | cons entry added ih =>
      rw [List.foldl_cons, ih, size_add, List.length_cons]
      omega

end LoanIndex

/-! ## The loans of a program -/

/-- One statement comes before the other in program order. -/
def Location.Before (l l' : Location) : Prop :=
  l.block < l'.block ∨ l.block = l'.block ∧ l.statement < l'.statement

/-- Whether an expression is a borrow as a whole. -/
def Expr.isBorrow : Expr → Bool
  | .access kind _ => kind.isBorrow
  | _ => false

theorem Expr.borrowed?_eq_some_iff {e : Expr} {place : Place} {o : Origin} :
    e.borrowed? = some (place, o) ↔ ∃ m, e = .access (.borrow m o) place := by
  rcases e with ⟨⟨m, o'⟩ | _ | _, q⟩ | _ | _ | _ <;> simp [borrowed?, and_comm]

theorem Expr.isSome_borrowed? (e : Expr) : e.borrowed?.isSome = e.isBorrow := by
  rcases e with ⟨_ | _ | _, _⟩ | _ | _ | _ <;> rfl

theorem pairwise_zipIdx {α : Type} (xs : List α) :
    xs.zipIdx.Pairwise fun a b => a.2 < b.2 := by
  have hindices := List.pairwise_lt_range' (s := 0) (n := xs.length)
  rw [← List.zipIdx_map_snd 0 xs] at hindices
  exact List.pairwise_map.mp hindices

namespace Block

theorem mem_loans {b : Block} {index : Nat} {place : Place} {loan : Loan} :
    (place, loan) ∈ b.loans index ↔
      loan.location.block = index ∧ ∃ s, b.statements[loan.location.statement]? = some s ∧
        s.expr.borrowed? = some (place, loan.origin) := by
  simp only [loans, List.mem_filterMap, Prod.exists, List.mk_mem_zipIdx_iff_getElem?,
    Option.map_eq_some_iff, Prod.mk.injEq]
  constructor
  · rintro ⟨s, i, hs, _, _, hborrowed, rfl, rfl⟩
    exact ⟨rfl, s, hs, hborrowed⟩
  · rintro ⟨rfl, s, hs, hborrowed⟩
    exact ⟨s, _, hs, place, loan.origin, hborrowed, rfl, rfl⟩

theorem pairwise_loans (b : Block) (index : Nat) :
    (b.loans index).Pairwise fun x y => x.2.location.Before y.2.location := by
  refine (pairwise_zipIdx b.statements).filterMap _ ?_
  rintro ⟨s, i⟩ ⟨s', j⟩ hlt x hx y hy
  obtain ⟨_, _, rfl⟩ := Option.map_eq_some_iff.mp hx
  obtain ⟨_, _, rfl⟩ := Option.map_eq_some_iff.mp hy
  exact Or.inr ⟨rfl, hlt⟩

theorem length_loans (b : Block) (index : Nat) :
    (b.loans index).length = (b.statements.filter (·.expr.isBorrow)).length := by
  have hborrows : (b.loans index).length =
      b.statements.zipIdx.countP ((·.expr.isBorrow) ∘ Prod.fst) := by
    rw [loans, List.length_filterMap_eq_countP]
    refine List.countP_congr fun ⟨s, i⟩ _ => ?_
    simp [Expr.isSome_borrowed?]
  rw [hborrows, ← List.countP_map, List.zipIdx_map_fst, List.countP_eq_length_filter]

theorem length_flatMap_loans (blocks : List Block) (start : Nat) :
    ((blocks.zipIdx start).flatMap fun entry => entry.1.loans entry.2).length =
      ((blocks.flatMap (·.statements)).filter (·.expr.isBorrow)).length := by
  induction blocks generalizing start with
  | nil => rfl
  | cons b blocks ih =>
      simp only [List.zipIdx_cons, List.flatMap_cons, List.length_append, List.filter_append, ih,
        length_loans]

end Block

namespace Program

/-- The whole expression of a statement. -/
def exprAt? (p : Program) (l : Location) : Option Expr :=
  p.blocks[l.block]?.bind fun b => b.statements[l.statement]?.map (·.expr)

theorem loansOf_eq (p : Program) (place : Place) :
    p.loansOf place =
      p.loans.filterMap fun entry => if entry.1 = place then some entry.2 else none :=
  LoanIndex.loansOf_foldl p.loans .empty place

theorem size_loanIndex (p : Program) : p.loanIndex.size = p.loans.length :=
  (LoanIndex.size_foldl p.loans .empty).trans (Nat.zero_add _)

theorem mem_loans {p : Program} {place : Place} {loan : Loan} :
    (place, loan) ∈ p.loans ↔
      ∃ m, p.exprAt? loan.location = some (.access (.borrow m loan.origin) place) := by
  simp only [loans, List.mem_flatMap, Prod.exists, List.mk_mem_zipIdx_iff_getElem?, Block.mem_loans,
    Expr.borrowed?_eq_some_iff, exprAt?, Option.bind_eq_some_iff, Option.map_eq_some_iff]
  constructor
  · rintro ⟨b, _, hb, rfl, s, hs, m, hm⟩
    exact ⟨m, b, hb, s, hs, hm⟩
  · rintro ⟨m, b, hb, s, hs, hm⟩
    exact ⟨b, _, hb, rfl, s, hs, m, hm⟩

theorem mem_loansOf {p : Program} {place : Place} {loan : Loan} :
    loan ∈ p.loansOf place ↔
      ∃ m, p.exprAt? loan.location = some (.access (.borrow m loan.origin) place) := by
  rw [← mem_loans, loansOf_eq, List.mem_filterMap]
  constructor
  · rintro ⟨⟨q, l⟩, hmem, hentry⟩
    split at hentry
    · next hq =>
      cases hentry
      exact hq ▸ hmem
    · cases hentry
  · intro hmem
    exact ⟨_, hmem, if_pos rfl⟩

theorem pairwise_loans (p : Program) :
    p.loans.Pairwise fun x y => x.2.location.Before y.2.location := by
  refine List.pairwise_flatMap.mpr ⟨fun ⟨b, i⟩ _ => b.pairwise_loans i, ?_⟩
  refine (pairwise_zipIdx p.blocks).imp ?_
  rintro ⟨b, i⟩ ⟨b', j⟩ hlt ⟨_, x⟩ hx ⟨_, y⟩ hy
  obtain ⟨rfl, _⟩ := Block.mem_loans.mp hx
  obtain ⟨rfl, _⟩ := Block.mem_loans.mp hy
  exact Or.inl hlt

theorem pairwise_loansOf (p : Program) (place : Place) :
    (p.loansOf place).Pairwise fun a b => a.location.Before b.location := by
  rw [loansOf_eq]
  refine p.pairwise_loans.filterMap _ ?_
  intro x y hbefore a ha b hb
  split at ha <;> cases ha
  split at hb <;> cases hb
  exact hbefore

theorem length_loans (p : Program) :
    p.loans.length = ((p.blocks.flatMap (·.statements)).filter (·.expr.isBorrow)).length :=
  Block.length_flatMap_loans p.blocks 0

end Program

/-- Under each place the index holds the statements that borrow it as a whole, in program order and
each once. Such a statement is found under one place only, a statement that calls is found under
none, and the index has as many loans as there are such statements. -/
theorem loanIndex_exact (p : Program) :
    (∀ place, (p.loansOf place).Pairwise (fun a b => a.location.Before b.location) ∧
      ∀ loan, loan ∈ p.loansOf place ↔
        ∃ m, p.exprAt? loan.location = some (.access (.borrow m loan.origin) place)) ∧
    (∀ l, (∃ m o place, p.exprAt? l = some (.access (.borrow m o) place)) ↔
      ∃! place, ∃ loan ∈ p.loansOf place, loan.location = l) ∧
    (¬ ∃ place, ∃ loan ∈ p.loansOf place, ∃ callee args,
      p.exprAt? loan.location = some (.call callee args)) ∧
    p.loanIndex.size = ((p.blocks.flatMap (·.statements)).filter (·.expr.isBorrow)).length := by
  refine ⟨fun place => ⟨p.pairwise_loansOf place, fun loan => Program.mem_loansOf⟩, ?_, ?_,
    p.size_loanIndex.trans p.length_loans⟩
  · intro l
    constructor
    · rintro ⟨m, o, place, hexpr⟩
      refine ⟨place, ⟨⟨o, l⟩, Program.mem_loansOf.mpr ⟨m, hexpr⟩, rfl⟩, ?_⟩
      rintro q ⟨loan, hloan, rfl⟩
      obtain ⟨m', hexpr'⟩ := Program.mem_loansOf.mp hloan
      cases hexpr.symm.trans hexpr'
      rfl
    · rintro ⟨place, ⟨loan, hloan, rfl⟩, _⟩
      obtain ⟨m, hexpr⟩ := Program.mem_loansOf.mp hloan
      exact ⟨m, loan.origin, place, hexpr⟩
  · rintro ⟨place, loan, hloan, callee, args, hcall⟩
    obtain ⟨m, hexpr⟩ := Program.mem_loansOf.mp hloan
    cases hexpr.symm.trans hcall

end OriginFacts
