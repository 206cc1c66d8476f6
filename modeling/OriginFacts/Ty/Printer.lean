import OriginFacts.Ty.Basic

/-! The surface form of types: `&'a mut S<'b, i32>`. -/

namespace OriginFacts

/-- The word after the origin of a reference. -/
def Mutability.keyword : Mutability → String
  | .shared => ""
  | .mutable => "mut "

mutual

/-- A type in surface form. A struct without arguments is written without angle brackets. -/
def Ty.render : Ty → String
  | .i32 => "i32"
  | .unit => "()"
  | .ref m o target => "&" ++ o ++ " " ++ m.keyword ++ target.render
  | .struct name [] => name
  | .struct name (a :: args) => name ++ "<" ++ a.render ++ Arg.renderRest args ++ ">"

/-- An argument in surface form. -/
def Arg.render : Arg → String
  | .origin o => o
  | .ty t => t.render

/-- The arguments after the first, each behind a comma and a space. -/
def Arg.renderRest : List Arg → String
  | [] => ""
  | a :: args => ", " ++ a.render ++ Arg.renderRest args

end

end OriginFacts
