import Mathlib.Data.List.Forall2
import OriginFacts.Document.Loader
import OriginFacts.Proofs.Document.Position
import OriginFacts.Proofs.Emission.Points
import OriginFacts.Proofs.Surface.Grammar

/-!
Which documents describe which programs. The rules speak of values only: what is under each key, the
texts in surface form, and where the statements stand in the source. A key that is there counts even
with a null under it, and keys that no rule names may hold anything.
-/

namespace OriginFacts.Document

open Surface (Token Writes TyForm PlaceForm OriginForm SlotForm)

/-! ## Values -/

/-- What is under a key, or the default if the key is not there. -/
def memberOr (v : Json) (key : String) (default : Json) : Json :=
  (v.get? key).getD default

section

variable {α : Type}

/-- A text that writes something in a surface form. -/
def TextOf (form : List Token → α → Prop) (v : Json) (a : α) : Prop :=
  ∃ text : String, v = .str text ∧ Writes form text a

/-- A list with one item for each thing, in order. -/
def ListOf (item : Json → α → Prop) (v : Json) (as : List α) : Prop :=
  ∃ items, v = .list items ∧ List.Forall₂ item items as

/-- An object with one member for each thing, in order. -/
def ObjectOf (member : RawString × Json → α → Prop) (v : Json) (as : List α) : Prop :=
  ∃ members, v = .object members ∧ List.Forall₂ member members as

/-- An object in which something is under the key. -/
def MemberOf (key : String) (content : Json → α → Prop) (v : Json) (a : α) : Prop :=
  ∃ w, v.get? key = some w ∧ content w a

end

/-! ## Declarations -/

/-- A declared name is a key, and its type the text under it. -/
def BindingOf (member : RawString × Json) (b : Binding) : Prop :=
  member.1 = b.name ∧ TextOf TyForm member.2 b.ty

structure StructOf (v : Json) (decl : StructDecl) : Prop where
  object : v.kind = .object
  name : v.get? "name" = some (.str decl.name)
  generics : ListOf (TextOf SlotForm) (memberOr v "generics" (.list [])) decl.generics
  fields : ObjectOf BindingOf (memberOr v "fields" (.object [])) decl.fields

/-! ## Expressions -/

/-- Of the keys for expressions this one is there and no other. -/
def OnlyKind (v : Json) (kind : ExprKind) : Prop :=
  ∀ other : ExprKind, (v.get? other.key).isSome = true ↔ other = kind

mutual

/-- Expressions by their kind. What is under `unit` is not looked at. -/
inductive ExprOf : Json → Expr → Prop where
  | borrow {v : Json} {m : Mutability} {o : Origin} {place : Place} :
      OnlyKind v (.borrow m) → MemberOf "origin" (TextOf OriginForm) v o →
        MemberOf (ExprKind.borrow m).key (TextOf PlaceForm) v place →
          ExprOf v (.access (.borrow m o) place)
  | copy {v : Json} {place : Place} :
      OnlyKind v .copy → MemberOf "copy" (TextOf PlaceForm) v place →
        ExprOf v (.access .copy place)
  | move {v : Json} {place : Place} :
      OnlyKind v .move → MemberOf "move" (TextOf PlaceForm) v place →
        ExprOf v (.access .move place)
  | call {v : Json} {callee : String} {items : List Json} {args : List Expr} :
      OnlyKind v .call → v.get? "call" = some (.str callee) →
        memberOr v "args" (.list []) = .list items → ExprsOf items args →
          ExprOf v (.call callee args)
  | number {v : Json} {n : Int} :
      OnlyKind v .number → v.get? "number" = some (.int n) → ExprOf v (.number n)
  | unit {v : Json} : OnlyKind v .unit → ExprOf v .unit

inductive ExprsOf : List Json → List Expr → Prop where
  | nil : ExprsOf [] []
  | cons {v : Json} {e : Expr} {vs : List Json} {es : List Expr} :
      ExprOf v e → ExprsOf vs es → ExprsOf (v :: vs) (e :: es)

end

/-! ## Statements and blocks -/

/-- A statement but for its position. Only the presence of `assign` makes it an assignment. -/
structure StatementOf (v : Json) (s : Statement) : Prop where
  expr : MemberOf "expr" ExprOf v s.expr
  target : Option.Rel (TextOf PlaceForm) (v.get? "assign") s.target

/-- A value that gives the position of a statement by its text alone. -/
def TextOnly (v : Json) (text : String) : Prop :=
  v.get? "span" = none ∧ v.get? "text" = some (.str text)

/-- The position of a statement: offsets that cover a text, or else the next occurrence of a text
from the cursor on. -/
inductive SpanOf (source : ByteArray) (cursor : Nat) (v : Json) (span : Span) : Prop where
  | offsets (given : v.get? "span" = some (.list [.int span.start, .int span.stop])) (text : String)
      (covers : span.Covers source text)
  | text (absent : v.get? "span" = none) (text : String)
      (given : v.get? "text" = some (.str text)) (nonempty : text ≠ "")
      (next : SpellsNext source cursor text span)

/-- Statements in a row, each with the end of the one before as its cursor. -/
inductive Placed (source : ByteArray) : Nat → List Json → List Statement → Prop where
  | nil {cursor : Nat} : Placed source cursor [] []
  | cons {cursor : Nat} {v : Json} {s : Statement} {vs : List Json} {ss : List Statement} :
      SpanOf source cursor v s.span → Placed source s.span.stop.toNat vs ss →
        Placed source cursor (v :: vs) (s :: ss)

/-- A block but for the positions of its statements. -/
structure BlockOf (v : Json) (b : Block) : Prop where
  object : v.kind = .object
  name : v.get? "name" = some (.str b.name)
  statements : ListOf StatementOf (memberOr v "statements" (.list [])) b.statements
  successors : ListOf (fun w (name : String) => w = .str name) (memberOr v "successors" (.list []))
    b.successors

/-! ## Programs -/

/-- The items of the list under a key; none if there is no such list. -/
def itemsUnder (key : String) (value : Json) : List Json :=
  match value.get? key with
  | some (.list items) => items
  | _ => []

/-- The values that describe the statements of a document, through all its blocks. -/
def statementsOf (doc : Json) : List Json :=
  (itemsUnder "blocks" doc).flatMap (itemsUnder "statements")

/-- The parts of a program over a given source. The cursor passes from block to block. -/
structure ProgramOf (doc : Json) (source : String) (p : Program) : Prop where
  vars : ObjectOf BindingOf (memberOr doc "variables" (.object [])) p.vars
  structs : ListOf StructOf (memberOr doc "structs" (.list [])) p.structs
  blocks : ListOf BlockOf (memberOr doc "blocks" (.list [])) p.blocks
  placed : Placed source.toUTF8 0 (statementsOf doc) p.statements

/-- The document describes the program over the source, which is its own one unless another one is
given. -/
structure Describes (doc : Json) (override : Option RawString) (p : Program) (source : String) :
    Prop where
  object : doc.kind = .object
  given : override = some (.text source) ∨
    override = none ∧ memberOr doc "source" (.str "") = .str source
  program : ProgramOf doc source p

end OriginFacts.Document
