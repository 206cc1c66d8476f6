import OriginFacts.Facts.Emission
import OriginFacts.Proofs.Loan

/-!
The points of a program and what an emission finds at them: the accesses inside an expression, the
statements in program order, and the statements that borrow a place as a whole.
-/

namespace OriginFacts

/-! ## Leaves of an expression -/

/-- An access inside an expression. -/
structure Leaf where
  kind : AccessKind
  place : Place

mutual

/-- The accesses of an expression from left to right, through calls of any depth. -/
def Expr.leaves : Expr → List Leaf
  | .access kind place => [⟨kind, place⟩]
  | .call _ args => Expr.leavesOf args
  | .number _ => []
  | .unit => []

/-- The accesses of expressions from left to right. -/
def Expr.leavesOf : List Expr → List Leaf
  | [] => []
  | e :: es => e.leaves ++ Expr.leavesOf es

end

/-- Whether an access looks at the type of its place: all do but a shared borrow. -/
def AccessKind.usesPlace : AccessKind → Bool
  | .borrow .shared _ => false
  | _ => true

/-- Whether an access writes to its place: only a mutable borrow does. -/
def AccessKind.writesPlace : AccessKind → Bool
  | .borrow .mutable _ => true
  | _ => false

/-! ## Points -/

/-- A statement with the name of its block and its index in it. -/
structure Point where
  block : String
  index : Nat
  statement : Statement

/-- The points of a block in order. -/
def Block.points (b : Block) : List Point :=
  b.statements.zipIdx.map fun (s, i) => ⟨b.name, i, s⟩

namespace Program

/-- The points of a program: blocks in declared order, statements in order. -/
def points (p : Program) : List Point :=
  p.blocks.flatMap Block.points

/-- The statements of a program in order. -/
def statements (p : Program) : List Statement :=
  p.blocks.flatMap (·.statements)

end Program

theorem Block.points_map_statement (b : Block) : b.points.map (·.statement) = b.statements := by
  simp only [points, List.map_map]
  exact List.zipIdx_map_fst 0 b.statements

theorem Block.mem_points {b : Block} {pt : Point} :
    pt ∈ b.points ↔ pt.block = b.name ∧ b.statements[pt.index]? = some pt.statement := by
  simp only [points, List.mem_map, Prod.exists, List.mk_mem_zipIdx_iff_getElem?]
  constructor
  · rintro ⟨s, i, h, rfl⟩
    exact ⟨rfl, h⟩
  · rintro ⟨hb, h⟩
    exact ⟨pt.statement, pt.index, h, by rw [← hb]⟩

namespace Program

theorem mem_points {p : Program} {pt : Point} : pt ∈ p.points ↔ ∃ b ∈ p.blocks, pt ∈ b.points := by
  simp [points]

theorem points_map_statement (p : Program) : p.points.map (·.statement) = p.statements := by
  simp [points, statements, List.map_flatMap, Block.points_map_statement]

theorem mem_statements_iff {p : Program} {s : Statement} :
    s ∈ p.statements ↔ ∃ pt ∈ p.points, pt.statement = s := by
  rw [← points_map_statement, List.mem_map]

end Program

/-! ## Borrows of a place -/

/-- The origin of an expression that is, as a whole, a borrow of exactly this place. -/
def Expr.borrowOf? (place : Place) : Expr → Option Origin
  | .access (.borrow _ o) borrowed => if borrowed = place then some o else none
  | _ => none

/-- The origins of all statements, in program order, whose whole expression borrows this place. -/
def Program.borrowsOf (p : Program) (place : Place) : List Origin :=
  p.statements.filterMap fun s => s.expr.borrowOf? place

theorem Expr.borrowOf?_eq_bind (place : Place) (e : Expr) :
    e.borrowOf? place = e.borrowed?.bind fun (q, o) => if q = place then some o else none := by
  rcases e with ⟨_ | _ | _, _⟩ | _ | _ | _ <;> rfl

theorem Expr.borrowOf?_eq_some_iff {place : Place} {e : Expr} {o : Origin} :
    e.borrowOf? place = some o ↔ ∃ m, e = .access (.borrow m o) place := by
  rcases e with ⟨⟨m, o'⟩ | _ | _, q⟩ | _ | _ | _ <;> simp [borrowOf?]
  grind

theorem Block.loans_filterMap_origin (b : Block) (index : Nat) (place : Place) :
    (b.loans index).filterMap (fun entry => if entry.1 = place then some entry.2.origin else none) =
      b.statements.filterMap fun s => s.expr.borrowOf? place := by
  have hstatements := List.zipIdx_map_fst 0 b.statements
  conv => rhs; rw [← hstatements, List.filterMap_map]
  rw [loans, List.filterMap_filterMap]
  congr 1
  funext entry
  obtain ⟨s, i⟩ := entry
  refine Eq.trans ?_ (Expr.borrowOf?_eq_bind place s.expr).symm
  exact Option.bind_map ..

/-- The loans of a place are the borrows of that place as a whole. -/
theorem Program.loansOf_map_origin (p : Program) (place : Place) :
    (p.loansOf place).map (·.origin) = p.borrowsOf place := by
  have hblocks := List.zipIdx_map_fst 0 p.blocks
  have hone : ∀ entry : Place × Loan,
      Option.map (·.origin) (if entry.1 = place then some entry.2 else none) =
        if entry.1 = place then some entry.2.origin else none := by
    intro entry
    split <;> rfl
  conv => rhs; rw [borrowsOf, statements, ← hblocks]
  rw [loansOf_eq, List.map_filterMap, loans, List.filterMap_flatMap, List.filterMap_flatMap,
    List.flatMap_map]
  simp only [hone, Block.loans_filterMap_origin]

end OriginFacts
