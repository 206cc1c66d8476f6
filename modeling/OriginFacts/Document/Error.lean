import OriginFacts.Json.Reader
import OriginFacts.Surface.Parse
import OriginFacts.Text.Literal

/-! Why a document describes no program, and where in the document that shows. -/

namespace OriginFacts.Document

/-- A step into a document. -/
inductive Step where
  | key (name : String)
  | index (i : Nat)
deriving DecidableEq, Repr

/-- A position of a document, from its root on. -/
abbrev Path := List Step

namespace Path

def key (path : Path) (name : String) : Path :=
  path ++ [.key name]

def index (path : Path) (i : Nat) : Path :=
  path ++ [.index i]

/-- A step in writing. Keys are written as they are. -/
def renderStep : Step → String
  | .key name => "." ++ name
  | .index i => "[" ++ toString i ++ "]"

/-- A position in writing; the root is a dollar sign. -/
def render (path : Path) : String :=
  "$" ++ String.join (path.map renderStep)

theorem render_root : render [] = "$" := rfl

theorem render_snoc (path : Path) (step : Step) :
    render (path ++ [step]) = path.render ++ renderStep step := by
  simp [render, String.append_assoc]

theorem render_key (path : Path) (name : String) :
    (path.key name).render = path.render ++ "." ++ name := by
  rw [key, render_snoc, renderStep, String.append_assoc]

theorem render_index (path : Path) (i : Nat) :
    (path.index i).render = path.render ++ "[" ++ toString i ++ "]" := by
  simp only [index, render_snoc, renderStep, String.append_assoc]

theorem isEmpty_render (path : Path) : path.render.isEmpty = false := by
  simp [render]

end Path

/-- The kinds of expressions, each named by the key that holds its content. -/
inductive ExprKind where
  | borrow (mutability : Mutability)
  | copy
  | move
  | call
  | number
  | unit
deriving DecidableEq, Repr

namespace ExprKind

def all : List ExprKind :=
  [borrow .shared, borrow .mutable, copy, move, call, number, unit]

def key : ExprKind → String
  | borrow .shared => "borrow"
  | borrow .mutable => "borrow_mut"
  | copy => "copy"
  | move => "move"
  | call => "call"
  | number => "number"
  | unit => "unit"

end ExprKind

/-- What is wrong with a value of a document. -/
inductive Cause where
  | wrongKind (expected got : Json.Kind)
  | notText (got : Json.Kind)
  | badForm (error : Surface.Error)
  | notOneKind
  | missingOrigin (kind : ExprKind)
  | notInteger
  | notOffsets
  | outsideSource (start stop : Int) (size : Nat)
  | splitsCharacter (start stop : Int)
  | textNotFound (text : String)
  | missingPosition
  | missingExpr
deriving DecidableEq, Repr

def Cause.message : Cause → String
  | .wrongKind expected got => "expected " ++ expected.name ++ ", got " ++ got.name
  | .notText got => "expected a string, got " ++ got.name
  | .badForm error => error.message
  | .notOneKind =>
    "expression needs exactly one of " ++ ", ".intercalate (ExprKind.all.map ExprKind.key)
  | .missingOrigin kind => "`" ++ kind.key ++ "` needs an `origin`"
  | .notInteger => "expected an integer"
  | .notOffsets => "expected [start, end] byte offsets"
  | .outsideSource start stop size =>
    toString start ++ ".." ++ toString stop ++ " is outside the source (" ++ toString size ++
      " bytes)"
  | .splitsCharacter start stop =>
    toString start ++ ".." ++ toString stop ++ " splits a UTF-8 character"
  | .textNotFound text => "statement text " ++ Literal.render text ++ " not found in source"
  | .missingPosition => "statement needs a `span` or its `text`"
  | .missingExpr => "statement needs an `expr`"

/-- A message with the place that it is about in front; an empty place is left out. -/
def located (place message : String) : String :=
  if place.isEmpty then message else place ++ ": " ++ message

/-- The first thing wrong with a document. -/
structure Error where
  path : Path
  cause : Cause
deriving DecidableEq, Repr

def Error.message (e : Error) : String :=
  located e.path.render e.cause.message

theorem Error.message_eq (e : Error) :
    e.message = e.path.render ++ ": " ++ e.cause.message := by
  simp [message, located, e.path.isEmpty_render]

/-- Why no program is loaded. Either the document is malformed, or a string is no text where its
bytes are asked for. Names and texts in surface form are taken for texts throughout: with another
string in the place of one, what becomes of the document is left open. -/
inductive LoadError where
  | malformed (error : Error)
  | unencodable (fault : EncodeFault)
  | foreign (path : Path)
deriving DecidableEq, Repr

end OriginFacts.Document
