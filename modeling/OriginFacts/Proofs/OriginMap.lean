import OriginFacts.Diagnostic
import OriginFacts.Proofs.Emission.Points
import OriginFacts.Resolve

/-!
Programs under a map on origins. Nothing but names of origins changes, two origins may become one,
and what a program says about places, loans and fields changes in the same way. Generic slots are no
uses of an origin and stay as they are.
-/

namespace OriginFacts

variable (rho : Origin → Origin)

/-! ## Types -/

mutual

def Ty.mapOrigins : Ty → Ty
  | .i32 => .i32
  | .unit => .unit
  | .ref m o target => .ref m (rho o) target.mapOrigins
  | .struct name args => .struct name (Arg.mapAllOrigins args)

def Arg.mapOrigins : Arg → Arg
  | .origin o => .origin (rho o)
  | .ty t => .ty t.mapOrigins

def Arg.mapAllOrigins : List Arg → List Arg
  | [] => []
  | a :: args => a.mapOrigins :: Arg.mapAllOrigins args

end

theorem Arg.mapAllOrigins_eq_map (args : List Arg) :
    Arg.mapAllOrigins rho args = args.map (Arg.mapOrigins rho) := by
  induction args with
  | nil => rfl
  | cons a args ih => rw [Arg.mapAllOrigins, ih, List.map_cons]

mutual

theorem Ty.collectOrigins_mapOrigins : (acc : List Origin) → (t : Ty) →
    (t.mapOrigins rho).collectOrigins (acc.map rho) = (t.collectOrigins acc).map rho
  | acc, .i32 => rfl
  | acc, .unit => rfl
  | acc, .ref _ o target => by
      simp only [Ty.mapOrigins, Ty.collectOrigins]
      rw [← Ty.collectOrigins_mapOrigins (acc ++ [o]) target, List.map_append]
      rfl
  | acc, .struct _ args => by
      simp only [Ty.mapOrigins, Ty.collectOrigins]
      exact Arg.collectAll_mapOrigins acc args

theorem Arg.collectOrigins_mapOrigins : (acc : List Origin) → (a : Arg) →
    (a.mapOrigins rho).collectOrigins (acc.map rho) = (a.collectOrigins acc).map rho
  | acc, .origin o => by simp [Arg.mapOrigins, Arg.collectOrigins]
  | acc, .ty t => by
      simp only [Arg.mapOrigins, Arg.collectOrigins]
      exact Ty.collectOrigins_mapOrigins acc t

theorem Arg.collectAll_mapOrigins : (acc : List Origin) → (args : List Arg) →
    Arg.collectAll (acc.map rho) (Arg.mapAllOrigins rho args) = (Arg.collectAll acc args).map rho
  | acc, [] => rfl
  | acc, a :: args => by
      simp only [Arg.mapAllOrigins, Arg.collectAll]
      rw [Arg.collectOrigins_mapOrigins acc a, Arg.collectAll_mapOrigins _ args]

end

@[simp]
theorem Ty.refOrigin?_mapOrigins (t : Ty) :
    (t.mapOrigins rho).refOrigin? = t.refOrigin?.map rho := by
  cases t <;> rfl

@[simp]
theorem Ty.isRef_mapOrigins (t : Ty) : (t.mapOrigins rho).isRef = t.isRef := by
  cases t <;> rfl

/-! ## Programs -/

def Binding.mapOrigins (b : Binding) : Binding :=
  { b with ty := b.ty.mapOrigins rho }

def StructDecl.mapOrigins (decl : StructDecl) : StructDecl :=
  { decl with fields := decl.fields.map (Binding.mapOrigins rho) }

theorem StructDecl.fields_mapOrigins (decl : StructDecl) :
    (decl.mapOrigins rho).fields = decl.fields.map (Binding.mapOrigins rho) := rfl

theorem StructDecl.tySlot?_mapOrigins (decl : StructDecl) (slot : String) :
    (decl.mapOrigins rho).tySlot? slot = decl.tySlot? slot := rfl

def AccessKind.mapOrigins : AccessKind → AccessKind
  | .borrow m o => .borrow m (rho o)
  | .copy => .copy
  | .move => .move

mutual

def Expr.mapOrigins : Expr → Expr
  | .access kind place => .access (kind.mapOrigins rho) place
  | .call callee args => .call callee (Expr.mapAllOrigins args)
  | .number n => .number n
  | .unit => .unit

def Expr.mapAllOrigins : List Expr → List Expr
  | [] => []
  | e :: es => e.mapOrigins :: Expr.mapAllOrigins es

end

def Statement.mapOrigins (s : Statement) : Statement :=
  { s with expr := s.expr.mapOrigins rho }

def Block.mapOrigins (b : Block) : Block :=
  { b with statements := b.statements.map (Statement.mapOrigins rho) }

/-- The program with other origins in the types of its variables and fields and in its borrows. -/
def Program.mapOrigins (p : Program) : Program where
  vars := p.vars.map (Binding.mapOrigins rho)
  structs := p.structs.map (StructDecl.mapOrigins rho)
  blocks := p.blocks.map (Block.mapOrigins rho)

/-! ## Faults -/

/-- A fault may quote a type or an argument, and with it their origins. -/
def Fault.mapOrigins : Fault → Fault
  | .notAStruct ty field => .notAStruct (ty.mapOrigins rho) field
  | .genericArgument struct slot index actual =>
    .genericArgument struct slot index (actual.map (Arg.mapOrigins rho))
  | fault => fault

theorem Fault.code_mapOrigins (fault : Fault) : (fault.mapOrigins rho).code = fault.code := by
  cases fault <;> rfl

/-- A lookup with other origins in its answer and in its fault. -/
def mapLookup {α β : Type} (answer : α → β) (lookup : Except Fault α) : Except Fault β :=
  (lookup.map answer).mapError (Fault.mapOrigins rho)

/-! ## Places -/

def Resolved.mapOrigins (r : Resolved) : Resolved :=
  ⟨r.ty.mapOrigins rho, r.origins.map rho⟩

theorem Binding.tyOf?_mapOrigins (bindings : List Binding) (name : String) :
    tyOf? (bindings.map (Binding.mapOrigins rho)) name =
      (tyOf? bindings name).map (Ty.mapOrigins rho) := by
  simp only [tyOf?, ← List.map_reverse, List.find?_map, Option.map_map]
  rfl

namespace Program

variable (p : Program)

theorem struct?_mapOrigins (name : String) :
    (p.mapOrigins rho).struct? name = (p.struct? name).map (StructDecl.mapOrigins rho) := by
  simp only [struct?, mapOrigins, ← List.map_reverse, List.find?_map]
  rfl

theorem fieldTy_mapOrigins (parent : Ty) (field : String) :
    (p.mapOrigins rho).fieldTy (parent.mapOrigins rho) field =
      mapLookup rho (Ty.mapOrigins rho) (p.fieldTy parent field) := by
  cases parent with
  | struct name args =>
      simp only [Ty.mapOrigins, fieldTy, struct?_mapOrigins]
      cases p.struct? name with
      | none => rfl
      | some decl =>
          simp only [Option.map_some, StructDecl.fields_mapOrigins, Binding.tyOf?_mapOrigins]
          cases Binding.tyOf? decl.fields field with
          | none => rfl
          | some declared =>
              cases declared with
              | struct slot slotArgs =>
                  simp only [Option.map_some, Ty.mapOrigins, StructDecl.tySlot?_mapOrigins]
                  cases decl.tySlot? slot with
                  | none => rfl
                  | some i =>
                      simp only [Arg.mapAllOrigins_eq_map, List.getElem?_map]
                      cases args[i]? with
                      | none => rfl
                      | some actual => cases actual <;> rfl
              | _ => rfl
  | _ => rfl

theorem walk_mapOrigins (ty : Ty) (origins : List Origin) (fields : List String) :
    (p.mapOrigins rho).walk (ty.mapOrigins rho) (origins.map rho) fields =
      mapLookup rho (Resolved.mapOrigins rho) (p.walk ty origins fields) := by
  induction fields generalizing ty origins with
  | nil =>
      rw [walk, walk, Ty.collectOrigins_mapOrigins]
      rfl
  | cons field fields ih =>
      rw [walk, walk, fieldTy_mapOrigins]
      cases p.fieldTy ty field with
      | error fault => rfl
      | ok next =>
          rw [Ty.collectOrigins_mapOrigins]
          exact ih next (ty.collectOrigins origins)

theorem resolve_mapOrigins (place : Place) :
    (p.mapOrigins rho).resolve place =
      mapLookup rho (Resolved.mapOrigins rho) (p.resolve place) := by
  simp only [resolve, mapOrigins, Binding.tyOf?_mapOrigins]
  cases Binding.tyOf? p.vars place.root with
  | none => rfl
  | some ty => exact walk_mapOrigins rho p ty [] place.fields

end Program

/-! ## Expressions and loans -/

def Leaf.mapOrigins (l : Leaf) : Leaf :=
  { l with kind := l.kind.mapOrigins rho }

mutual

theorem Expr.leaves_mapOrigins :
    (e : Expr) → (e.mapOrigins rho).leaves = e.leaves.map (Leaf.mapOrigins rho)
  | .access _ _ => rfl
  | .call _ args => by
      simp only [Expr.mapOrigins, Expr.leaves]
      exact Expr.leavesOf_mapOrigins args
  | .number _ => rfl
  | .unit => rfl

theorem Expr.leavesOf_mapOrigins : (es : List Expr) →
    Expr.leavesOf (Expr.mapAllOrigins rho es) = (Expr.leavesOf es).map (Leaf.mapOrigins rho)
  | [] => rfl
  | e :: es => by
      simp only [Expr.mapAllOrigins, Expr.leavesOf]
      rw [Expr.leaves_mapOrigins e, Expr.leavesOf_mapOrigins es, List.map_append]

end

theorem Expr.borrowOf?_mapOrigins (place : Place) (e : Expr) :
    (e.mapOrigins rho).borrowOf? place = (e.borrowOf? place).map rho := by
  rcases e with ⟨⟨m, o⟩ | _ | _, borrowed⟩ | _ | _ | _
  · simp only [Expr.mapOrigins, AccessKind.mapOrigins, borrowOf?]
    split <;> rfl
  all_goals rfl

theorem Program.statements_mapOrigins (p : Program) :
    (p.mapOrigins rho).statements = p.statements.map (Statement.mapOrigins rho) := by
  simp [statements, mapOrigins, Block.mapOrigins, List.flatMap_map, List.map_flatMap]

theorem Program.borrowsOf_mapOrigins (p : Program) (place : Place) :
    (p.mapOrigins rho).borrowsOf place = (p.borrowsOf place).map rho := by
  rw [borrowsOf, borrowsOf, statements_mapOrigins, List.filterMap_map, List.map_filterMap]
  congr 1
  funext s
  exact Expr.borrowOf?_mapOrigins rho place s.expr

end OriginFacts
