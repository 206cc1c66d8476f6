import OriginFacts.Proofs.Document.Loading
import OriginFacts.Proofs.Keyed
import OriginFacts.Proofs.Surface.Printing

/-!
Writing a program as a document. Types and places are printed, expressions are objects keyed by their
kind, statements have their offsets, and all orders are kept. A program whose names and origins can
be spelled is loaded again as it was.
-/

namespace OriginFacts

open Surface (IsName IsOrigin TyForm PlaceForm OriginForm SlotForm)

/-- Every place of the expression, and every origin of a borrow, can be spelled. -/
def Expr.Spellable (e : Expr) : Prop :=
  ∀ l ∈ e.leaves, l.place.Spellable ∧ ∀ o ∈ l.kind.origin?, IsOrigin o.toList

instance (e : Expr) : Decidable e.Spellable :=
  inferInstanceAs (Decidable
    (∀ l ∈ e.leaves, l.place.Spellable ∧ ∀ o ∈ l.kind.origin?, IsOrigin o.toList))

namespace Document

/-! ## The writer -/

/-- Names as keys, with their types in surface form. -/
def writeBindings (bs : List Binding) : Json :=
  .object (Keyed.ofList (bs.map fun b => (b.name, .str b.ty.render)))

def writeStruct (decl : StructDecl) : Json :=
  .object [("name", .str decl.name),
    ("generics", .list (decl.generics.map fun slot => .str slot.name)),
    ("fields", writeBindings decl.fields)]

mutual

def writeExpr : Expr → Json
  | .access (.borrow m o) place =>
    .object [((ExprKind.borrow m).key, .str place.render), ("origin", .str o)]
  | .access .copy place => .object [("copy", .str place.render)]
  | .access .move place => .object [("move", .str place.render)]
  | .call callee args => .object [("call", .str callee), ("args", .list (writeExprs args))]
  | .number n => .object [("number", .int n)]
  | .unit => .object [("unit", .null)]

def writeExprs : List Expr → List Json
  | [] => []
  | e :: es => writeExpr e :: writeExprs es

end

/-- A statement with its offsets; only an assignment has a target. -/
def writeStatement (s : Statement) : Json :=
  .object ((s.target.toList.map fun place => (.text "assign", .str place.render)) ++
    [(.text "expr", writeExpr s.expr), (.text "span", .list [.int s.span.start, .int s.span.stop])])

def writeBlock (b : Block) : Json :=
  .object [("name", .str b.name), ("statements", .list (b.statements.map writeStatement)),
    ("successors", .list (b.successors.map fun name => .str (.text name)))]

/-- The document of a program over a source. -/
def write (p : Program) (source : String) : Json :=
  .object [("source", .str source), ("variables", writeBindings p.vars),
    ("structs", .list (p.structs.map writeStruct)), ("blocks", .list (p.blocks.map writeBlock))]

/-- What a document can hold of a program: names that are keys are not repeated, all that is printed
can be spelled, and every statement has a text in the source. -/
structure Writable (p : Program) (source : String) : Prop where
  vars : (p.vars.map (·.name)).Nodup
  varTypes : ∀ b ∈ p.vars, b.ty.Spellable
  fields : ∀ decl ∈ p.structs, (decl.fields.map (·.name)).Nodup
  fieldTypes : ∀ decl ∈ p.structs, ∀ b ∈ decl.fields, b.ty.Spellable
  slots : ∀ decl ∈ p.structs, ∀ slot ∈ decl.generics, slot.Spellable
  targets : ∀ s ∈ p.statements, ∀ place ∈ s.target, place.Spellable
  exprs : ∀ s ∈ p.statements, s.expr.Spellable
  spans : ∀ s ∈ p.statements, ∃ text, s.span.textIn source.toUTF8 = .ok text

/-! ## What is written describes what it was written for -/

theorem listOf_map {α : Type} {item : Json → α → Prop} {toJson : α → Json} {as : List α}
    (h : ∀ a ∈ as, item (toJson a) a) : ListOf item (.list (as.map toJson)) as := by
  refine ⟨as.map toJson, rfl, ?_⟩
  rw [List.forall₂_map_left_iff, List.forall₂_same]
  exact h

theorem objectOf_writeBindings {bs : List Binding} (hnames : (bs.map (·.name)).Nodup)
    (htypes : ∀ b ∈ bs, b.ty.Spellable) : ObjectOf BindingOf (writeBindings bs) bs := by
  refine ⟨_, rfl, ?_⟩
  have hkeys : ((bs.map fun b => (RawString.text b.name, Json.str b.ty.render)).map
      (·.1)).Nodup := by
    have hkeys := hnames.map (f := RawString.text) fun _ _ => RawString.text.inj
    rw [List.map_map] at hkeys ⊢
    exact hkeys
  rw [Keyed.ofList_of_nodup hkeys, List.forall₂_map_left_iff, List.forall₂_same]
  intro b hb
  exact ⟨rfl, _, rfl, Surface.writes_render (htypes b hb)⟩

theorem structOf_writeStruct {decl : StructDecl} (hnames : (decl.fields.map (·.name)).Nodup)
    (htypes : ∀ b ∈ decl.fields, b.ty.Spellable) (hslots : ∀ slot ∈ decl.generics, slot.Spellable) :
    StructOf (writeStruct decl) decl where
  object := rfl
  name := rfl
  generics := listOf_map fun slot hslot => ⟨_, rfl, Surface.writes_slot (hslots slot hslot)⟩
  fields := objectOf_writeBindings hnames htypes

theorem textOf_place {place : Place} (h : place.Spellable) :
    TextOf PlaceForm (.str place.render) place :=
  ⟨_, rfl, Surface.writes_place h⟩

mutual

theorem exprOf_writeExpr : (e : Expr) → e.Spellable → ExprOf (writeExpr e) e
  | .access (.borrow m o) place, h => by
      obtain ⟨hplace, ho⟩ := h ⟨.borrow m o, place⟩ (List.mem_singleton_self _)
      have honly : kindsOf [((ExprKind.borrow m).key, .str place.render), ("origin", .str o)] =
          [.borrow m] := by
        cases m <;> rfl
      refine .borrow (kindsOf_eq_singleton_iff.mp honly) ⟨.str o, ?_, ?_⟩ ⟨.str place.render, ?_, ?_⟩
      · cases m <;> rfl
      · exact ⟨o, rfl, Surface.writes_origin (ho o rfl)⟩
      · cases m <;> rfl
      · exact textOf_place hplace
  | .access .copy place, h => by
      obtain ⟨hplace, _⟩ := h ⟨.copy, place⟩ (List.mem_singleton_self _)
      exact .copy (kindsOf_eq_singleton_iff.mp rfl) ⟨_, rfl, textOf_place hplace⟩
  | .access .move place, h => by
      obtain ⟨hplace, _⟩ := h ⟨.move, place⟩ (List.mem_singleton_self _)
      exact .move (kindsOf_eq_singleton_iff.mp rfl) ⟨_, rfl, textOf_place hplace⟩
  | .call callee args, h =>
      .call (kindsOf_eq_singleton_iff.mp rfl) rfl rfl (exprsOf_writeExprs args h)
  | .number n, _ => .number (kindsOf_eq_singleton_iff.mp rfl) rfl
  | .unit, _ => .unit (kindsOf_eq_singleton_iff.mp rfl)

theorem exprsOf_writeExprs : (es : List Expr) →
    (∀ l ∈ Expr.leavesOf es, l.place.Spellable ∧ ∀ o ∈ l.kind.origin?, IsOrigin o.toList) →
      ExprsOf (writeExprs es) es
  | [], _ => .nil
  | e :: es, h => by
      rw [Expr.leavesOf, List.forall_mem_append] at h
      exact .cons (exprOf_writeExpr e h.1) (exprsOf_writeExprs es h.2)

end

theorem statementOf_writeStatement {s : Statement} (htarget : ∀ place ∈ s.target, place.Spellable)
    (hexpr : s.expr.Spellable) : StatementOf (writeStatement s) s := by
  obtain ⟨target, e, span⟩ := s
  cases target with
  | none => exact ⟨⟨_, rfl, exprOf_writeExpr e hexpr⟩, .none⟩
  | some place => exact ⟨⟨_, rfl, exprOf_writeExpr e hexpr⟩, .some (textOf_place (htarget place rfl))⟩

theorem placed_writeStatement {source : ByteArray} {ss : List Statement}
    (h : ∀ s ∈ ss, ∃ text, s.span.textIn source = .ok text) (cursor : Nat) :
    Placed source cursor (ss.map writeStatement) ss := by
  induction ss generalizing cursor with
  | nil => exact .nil
  | cons s ss ih =>
      obtain ⟨⟨text, htext⟩, hss⟩ := List.forall_mem_cons.mp h
      refine .cons (.offsets ?_ text (Span.textIn_eq_ok_iff.mp htext)) (ih hss _)
      obtain ⟨target, e, span⟩ := s
      cases target <;> rfl

theorem statementsOf_write (p : Program) (source : String) :
    statementsOf (write p source) = p.statements.map writeStatement := by
  show (p.blocks.map writeBlock).flatMap (itemsUnder "statements") = _
  rw [List.flatMap_map, Program.statements, List.map_flatMap]
  rfl

theorem programOf_write {p : Program} {source : String} (h : Writable p source) :
    ProgramOf (write p source) source p where
  vars := objectOf_writeBindings h.vars h.varTypes
  structs := listOf_map fun decl hdecl =>
    structOf_writeStruct (h.fields decl hdecl) (h.fieldTypes decl hdecl) (h.slots decl hdecl)
  blocks := by
    refine listOf_map fun b hb => ⟨rfl, rfl, listOf_map fun s hs => ?_, listOf_map fun _ _ => rfl⟩
    have hs : s ∈ p.statements := List.mem_flatMap.mpr ⟨b, hb, hs⟩
    exact statementOf_writeStatement (h.targets s hs) (h.exprs s hs)
  placed := by
    rw [statementsOf_write]
    exact placed_writeStatement h.spans 0

/-- Loading gives back the program and the source that were written. -/
theorem load_write {p : Program} {source : String} (h : Writable p source) :
    load (write p source) none = .ok (p, source) :=
  load_eq_ok_iff.mpr ⟨_, source, rfl, .inr ⟨rfl, rfl⟩,
    readProgram_eq_ok_iff.mpr ⟨programOf_write h, rfl⟩⟩

/-- Two blocks over a struct with an origin and a type as arguments: a borrow into a field behind a
reference, then nested calls. -/
def sampleProgram : Program where
  vars := [⟨"x", .i32⟩, ⟨"p", .ref .mutable "'a" (.struct "S" [.origin "'b", .ty .unit])⟩]
  structs := [⟨"S", [.origin "'b", .ty "T"],
    [⟨"f", .ref .shared "'b" .i32⟩, ⟨"mut", .struct "T" []⟩]⟩]
  blocks := [
    ⟨"bb0", [⟨some ⟨true, "p", ["f"]⟩, .access (.borrow .shared "'1") ⟨false, "x", []⟩, ⟨0, 13⟩⟩],
      ["bb1", "bb1"]⟩,
    ⟨"bb1", [⟨none, .call "é" [.call "g" [.access .move ⟨false, "p", ["mut"]⟩, .number (-1)],
      .access (.borrow .mutable "'2") ⟨true, "p", ["f"]⟩, .unit], ⟨13, 48⟩⟩], []⟩]

def sampleSource : String :=
  "*p.f = &'1 x;é(g(p.mut, -1), &'2 mut *p.f, ());"

theorem load_write_sample :
    Writable sampleProgram sampleSource ∧
      load (write sampleProgram sampleSource) none = .ok (sampleProgram, sampleSource) := by
  have hspans : ∀ s ∈ sampleProgram.statements,
      ∃ text, s.span.textIn sampleSource.toUTF8 = .ok text := by
    intro s hs
    rcases hs with _ | ⟨_, _ | ⟨_, ⟨⟩⟩⟩
    · exact ⟨_, rfl⟩
    · exact ⟨_, rfl⟩
  have hwritable : Writable sampleProgram sampleSource :=
    ⟨by decide, by decide, by decide, by decide, by decide, by decide, by decide, hspans⟩
  exact ⟨hwritable, load_write hwritable⟩

end Document

end OriginFacts
