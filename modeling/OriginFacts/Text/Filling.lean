/-!
Filling lines: a text is cut into pieces, and each line takes as many of them as fit. Words start a
new line rather than be cut, unless they are longer than a line.
-/

namespace OriginFacts.Text

/-- Lines that are full, and the one that is being filled. -/
structure Filling where
  lines : List (List Char) := []
  line : List Char := []

namespace Filling

/-- Ends the line and starts another. -/
def startLine (f : Filling) (ended started : List Char) : Filling :=
  ⟨f.lines ++ [ended], started⟩

/-- Puts a character on the line, or on the next one if the line is full. -/
def addChar (width : Nat) (f : Filling) (c : Char) : Filling :=
  if f.line.length < width then { f with line := f.line ++ [c] }
  else f.startLine f.line [c]

/-- A line without the blank that ends it. -/
def withoutLastBlank (line : List Char) : List Char :=
  if line.getLast? = some ' ' then line.dropLast else line

/-- Puts a piece on the line. One that does not fit there starts the next line, where a blank is
dropped; one that fits on no line is spread over as many as it takes. -/
def addPiece (width : Nat) (f : Filling) (piece : List Char) : Filling :=
  if f.line.length + piece.length ≤ width then { f with line := f.line ++ piece }
  else if width < piece.length then piece.foldl (addChar width) f
  else if piece = [' '] then f.startLine f.line []
  else f.startLine (withoutLastBlank f.line) piece

/-- All lines. -/
def finish (f : Filling) : List (List Char) :=
  if f.line.isEmpty then f.lines else f.lines ++ [f.line]

end Filling

/-- Whether a line may be broken behind `before` and in front of `after`: at blanks, and behind a
hyphen with two letters on either side. -/
def isBreak (before after : List Char) : Bool :=
  match before.reverse, after with
  | ' ' :: _, _ => true
  | _, ' ' :: _ => true
  | '-' :: b :: a :: _, c :: d :: _ => a.isAlpha && b.isAlpha && c.isAlpha && d.isAlpha
  | _, _ => false

/-- Cuts a text at every possible break. `piece` is what was read since the last one. -/
def piecesFrom (piece : List Char) : List Char → List (List Char)
  | [] => if piece.isEmpty then [] else [piece]
  | c :: cs =>
    if isBreak (piece ++ [c]) cs then (piece ++ [c]) :: piecesFrom [] cs
    else piecesFrom (piece ++ [c]) cs

/-- The lines of a text at a width. -/
def fill (width : Nat) (text : String) : List String :=
  let filling := (piecesFrom [] text.toList).foldl (Filling.addPiece width) {}
  filling.finish.map String.ofList

end OriginFacts.Text
