import OriginFacts.Program

/-!
Loans: the statements whose whole expression is a borrow. A loan is found under exactly the place
that it borrows, and a borrow inside a call is no loan.
-/

namespace OriginFacts

/-- A statement by position: the block within the program, the statement within the block. -/
structure Location where
  block : Nat
  statement : Nat
deriving DecidableEq, Repr

/-- A borrowed origin and where it is borrowed. -/
structure Loan where
  origin : Origin
  location : Location
deriving DecidableEq, Repr

/-- The place that an expression borrows as a whole, with the origin of the borrow. -/
def Expr.borrowed? : Expr → Option (Place × Origin)
  | .access (.borrow _ o) place => some (place, o)
  | _ => none

/-- The loans of one block, with the places that they borrow. -/
def Block.loans (b : Block) (index : Nat) : List (Place × Loan) :=
  b.statements.zipIdx.filterMap fun (s, i) =>
    s.expr.borrowed?.map fun (place, o) => (place, ⟨o, ⟨index, i⟩⟩)

/-- Every loan of the program in program order, with the place that it borrows. -/
def Program.loans (p : Program) : List (Place × Loan) :=
  p.blocks.zipIdx.flatMap fun (b, i) => b.loans i

/-! ## Loans by place -/

/-- Loans under the places that they borrow. Every place stands once. -/
structure LoanIndex where
  entries : List (Place × List Loan)
  nodup : (entries.map (·.1)).Nodup

namespace LoanIndex

def empty : LoanIndex :=
  ⟨[], .nil⟩

/-- Puts a loan behind the others of its place. The first loan of a place goes behind all entries. -/
def insert (place : Place) (loan : Loan) : List (Place × List Loan) → List (Place × List Loan)
  | [] => [(place, [loan])]
  | (borrowed, loans) :: entries =>
    if borrowed = place then (borrowed, loans ++ [loan]) :: entries
    else (borrowed, loans) :: insert place loan entries

theorem places_insert (place : Place) (loan : Loan) (entries : List (Place × List Loan)) :
    (insert place loan entries).map (·.1) =
      if place ∈ entries.map (·.1) then entries.map (·.1) else entries.map (·.1) ++ [place] := by
  induction entries with
  | nil => rfl
  | cons entry entries ih =>
      obtain ⟨borrowed, loans⟩ := entry
      by_cases hborrowed : borrowed = place
      · simp [insert, hborrowed]
      · have hne : place ≠ borrowed := Ne.symm hborrowed
        simp only [insert, if_neg hborrowed, List.map_cons, ih, List.mem_cons, hne, false_or]
        split <;> rfl

theorem nodup_insert (place : Place) (loan : Loan) {entries : List (Place × List Loan)}
    (h : (entries.map (·.1)).Nodup) : ((insert place loan entries).map (·.1)).Nodup := by
  rw [places_insert]
  split
  · exact h
  · next hnew =>
    refine List.nodup_append.mpr ⟨h, by simp, ?_⟩
    rintro q hq _ hplace rfl
    exact hnew (List.mem_singleton.mp hplace ▸ hq)

def add (index : LoanIndex) (place : Place) (loan : Loan) : LoanIndex :=
  ⟨insert place loan index.entries, nodup_insert place loan index.nodup⟩

/-- The loans under a place. -/
def loansOf (index : LoanIndex) (place : Place) : List Loan :=
  (index.entries.lookup place).getD []

/-- The number of loans under all places. -/
def size (index : LoanIndex) : Nat :=
  (index.entries.flatMap (·.2)).length

end LoanIndex

/-- The loans of a program by place, added in program order. -/
def Program.loanIndex (p : Program) : LoanIndex :=
  p.loans.foldl (fun index (place, loan) => index.add place loan) .empty

/-- The loans of exactly this place, in program order. -/
def Program.loansOf (p : Program) (place : Place) : List Loan :=
  p.loanIndex.loansOf place

end OriginFacts
