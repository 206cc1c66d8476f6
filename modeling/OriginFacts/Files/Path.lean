import OriginFacts.Text.Split

/-! Paths of files. -/

namespace OriginFacts.Files

/-- A path: how many slashes it starts with, and its parts. Empty parts and single dots are left
out. -/
structure Path where
  slashes : Nat
  parts : List String
deriving DecidableEq, Repr

namespace Path

/-- The path that a text writes. Of leading slashes exactly two are kept as two; more count as
one. -/
def ofText (text : String) : Path :=
  let cs := text.toList
  let leading := (cs.takeWhile (· == '/')).length
  let slashes := if leading > 2 then 1 else leading
  let parts := (Text.splitAtMark '/' cs).map String.ofList
  ⟨slashes, parts.filter fun part => part != "" && part != "."⟩

/-- A path as text; without parts it is the current directory or the root. -/
def render (p : Path) : String :=
  let parts := "/".intercalate p.parts
  if p.slashes = 0 then (if p.parts.isEmpty then "." else parts)
  else String.ofList (List.replicate p.slashes '/') ++ parts

theorem intercalate_ne_empty {mark part : String} (h : part ≠ "") (parts : List String) :
    mark.intercalate (part :: parts) ≠ "" := by
  cases parts with
  | nil => simpa using h
  | cons next parts => simp [String.intercalate_cons_cons, h]

/-- Every text is shown as something. -/
theorem render_ofText_ne_empty (text : String) : (ofText text).render ≠ "" := by
  unfold render
  split
  · cases hparts : (ofText text).parts with
    | nil => exact of_decide_eq_true rfl
    | cons part parts =>
        have hpart : part ∈ (ofText text).parts := by simp [hparts]
        have hne : part ≠ "" := by
          have hkept := (List.mem_filter.mp hpart).2
          simp only [Bool.and_eq_true, bne_iff_ne] at hkept
          exact hkept.1
        exact intercalate_ne_empty hne parts
  · next hslashes => simp [hslashes]

/-- Whether a null character stands in a path. The system cannot be handed such a path. -/
def hasNull (p : Path) : Bool :=
  p.parts.any (·.toList.contains '\x00')

/-- A path inside a directory. -/
def child (p : Path) (name : String) : Path :=
  { p with parts := p.parts ++ [name] }

end Path

end OriginFacts.Files
