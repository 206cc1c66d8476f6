/-! Line ends and positions in a text. -/

namespace OriginFacts.Text

/-- Every line end as one line feed: a carriage return stands for one, alone or before a line
feed. -/
def unifyLineEnds : List Char → List Char
  | [] => []
  | '\r' :: '\n' :: rest => '\n' :: unifyLineEnds rest
  | '\r' :: rest => '\n' :: unifyLineEnds rest
  | c :: rest => c :: unifyLineEnds rest

/-- A place in a text: how many characters stand before it, its line and its column, the latter two
counted from 1. -/
structure Position where
  offset : Nat
  line : Nat
  column : Nat
deriving DecidableEq, Repr

/-- The position behind a text. A line feed starts a new line. -/
def Position.after (text : List Char) : Position where
  offset := text.length
  line := text.count '\n' + 1
  column := (text.reverse.takeWhile (· != '\n')).length + 1

/-- The position in a text at which `rest` is still to come. -/
def Position.before (text rest : List Char) : Position :=
  Position.after (text.take (text.length - rest.length))

end OriginFacts.Text
