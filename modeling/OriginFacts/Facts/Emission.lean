import OriginFacts.Facts.Flow
import OriginFacts.Loan
import OriginFacts.Resolve

/-!
Emission: the facts of a program, block by block and statement by statement. Rows are added to a
fact base as they are found, so those found before a fault stay in it.
-/

namespace OriginFacts

/-- Adds rows to a fact base, or stops at a fault. -/
abbrev Emit := ExceptT Fault (StateM Facts)

/-- A program with the bytes of its source and a way to name its points. -/
structure Extraction where
  program : Program
  source : ByteArray
  naming : Naming

namespace Extraction

/-- Adds rows. -/
def add (rows : Facts) : Emit Unit :=
  modify (· ++ rows)

/-- Stops at the fault of a failed lookup. -/
def require {α : Type} (lookup : Except Fault α) : Emit α :=
  match lookup with
  | .ok a => pure a
  | .error fault => throw fault

/-- The same node for each origin of a list. -/
def originsAt (node : Node) (origins : List Origin) : List OriginAt :=
  origins.map fun o => ⟨o, node⟩

/-- Every loan of the place ends at the node. -/
def invalidate (x : Extraction) (node : Node) (place : Place) : Emit Unit :=
  add { invalidations := originsAt node ((x.program.loansOf place).map (·.origin)) }

/-- Every origin of the place is used at the node. -/
def access (x : Extraction) (node : Node) (place : Place) : Emit Unit := do
  let resolved ← require (x.program.resolve place)
  add { accesses := originsAt node resolved.origins }

mutual

/-- The facts of evaluating an expression. A borrow issues its origin anew; a mutable one also
writes to the place. A copy or a move reads every origin of the place. Calls are read argument by
argument. -/
def emitExpr (x : Extraction) (node : Node) : Expr → Emit Unit
  | .access (.borrow .shared o) _ => add { clears := [⟨o, node⟩] }
  | .access (.borrow .mutable o) place => do
    add { clears := [⟨o, node⟩] }
    x.access node place
    x.invalidate node place
  | .access .copy place => x.access node place
  | .access .move place => x.access node place
  | .call _ args => emitArgs x node args
  | .number _ => pure ()
  | .unit => pure ()

/-- The facts of evaluating expressions from left to right. -/
def emitArgs (x : Extraction) (node : Node) : List Expr → Emit Unit
  | [] => pure ()
  | e :: es => do
    emitExpr x node e
    emitArgs x node es

end

/-- Assigning to a reference relates the outermost origin of what is assigned to the outermost
origin of the target. Only a borrow, a copy or a move as a whole is related. -/
def emitSubset (x : Extraction) (node : Node) (target : Ty) (value : Expr) : Emit Unit :=
  match target.refOrigin? with
  | none => pure ()
  | some into =>
    match value with
    | .access (.borrow _ o) _ => add { subsets := [⟨o, into, node⟩] }
    | .access _ place => do
      let resolved ← require (x.program.resolve place)
      match resolved.ty.refOrigin? with
      | some o => add { subsets := [⟨o, into, node⟩] }
      | none => pure ()
    | _ => pure ()

/-- The facts of an assignment. The target's origins start over, and writing to a place that holds
no reference ends the loans of that place. -/
def emitAssign (x : Extraction) (node : Node) (place : Place) (value : Expr) : Emit Unit := do
  let target ← require (x.program.resolve place)
  add { clears := originsAt node target.origins }
  if !target.ty.isRef then
    x.invalidate node place
  x.emitExpr node value
  x.emitSubset node target.ty value

/-- The facts of a statement at a node: its text first. -/
def emitStatement (x : Extraction) (node : Node) (s : Statement) : Emit Unit := do
  let text ← require (s.span.textIn x.source)
  add { texts := [⟨text, node⟩] }
  match s.target with
  | some place => x.emitAssign node place s.expr
  | none => x.emitExpr node s.expr

/-- The facts of the statements of a block from the index `i` on. -/
def emitStatements (x : Extraction) (block : String) (i : Nat) : List Statement → Emit Unit
  | [] => pure ()
  | s :: rest => do
    let node ← require (x.program.nodeAt x.naming block i)
    x.emitStatement node s
    x.emitStatements block (i + 1) rest

/-- The facts of a block: its edges, then its statements. -/
def emitBlock (x : Extraction) (b : Block) : Emit Unit := do
  let edges ← require (x.program.blockEdges x.naming b)
  add { edges := edges }
  x.emitStatements b.name 0 b.statements

/-- The facts of blocks in order. -/
def emitBlocks (x : Extraction) : List Block → Emit Unit
  | [] => pure ()
  | b :: rest => do
    x.emitBlock b
    x.emitBlocks rest

/-- The facts of the whole program, added to what is there. -/
def emitProgram (x : Extraction) : Emit Unit :=
  x.emitBlocks x.program.blocks

/-- Runs an emission on a fact base. The fact base holds what was added, also after a fault. -/
def run {α : Type} (emission : Emit α) (facts : Facts) : Except Fault α × Facts :=
  StateT.run (ExceptT.run emission) facts

/-- The facts of the program. -/
def facts (x : Extraction) : Except Fault Facts :=
  match run x.emitProgram {} with
  | (.ok (), facts) => .ok facts
  | (.error fault, _) => .error fault

/-- The blocks that emission enters: all up to and with the first one that has a fault. -/
def entered (x : Extraction) : List Block → List Block
  | [] => []
  | b :: rest =>
    match (run (x.emitBlock b) {}).1 with
    | .ok () => b :: x.entered rest
    | .error _ => [b]

end Extraction

end OriginFacts
