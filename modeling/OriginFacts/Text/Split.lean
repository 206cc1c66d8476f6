/-! Cutting a text at a character. -/

namespace OriginFacts.Text

/-- The parts of a text between the places where `mark` stands, empty ones included. -/
def splitAtMark (mark : Char) : List Char → List (List Char)
  | [] => [[]]
  | c :: cs =>
    match splitAtMark mark cs with
    | [] => [[]]
    | part :: parts => if c = mark then [] :: part :: parts else (c :: part) :: parts

end OriginFacts.Text
