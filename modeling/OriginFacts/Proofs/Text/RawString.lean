import OriginFacts.Text.RawString

/-! A string is given by its code points, and is a text exactly if no surrogate is among them. -/

namespace OriginFacts

/-- U+D800. -/
def Surrogate.lowest : Surrogate :=
  ⟨⟨0, by decide⟩⟩

namespace RawString

theorem splitPoints_chars (cs : List Char) (points : List CodePoint) :
    splitPoints (cs.map .char ++ points) =
      (cs ++ (splitPoints points).1, (splitPoints points).2) := by
  induction cs with
  | nil => rfl
  | cons c cs ih => rw [List.map_cons, List.cons_append, splitPoints, ih, List.cons_append]

theorem ofPoints_chars (cs : List Char) : ofPoints (cs.map .char) = .text (String.ofList cs) := by
  have hsplit := splitPoints_chars cs []
  rw [List.append_nil] at hsplit
  simp [ofPoints, hsplit, splitPoints]

/-- No two strings have the same code points. -/
theorem ofPoints_points (s : RawString) : ofPoints s.points = s := by
  cases s with
  | text value => rw [points, ofPoints_chars, String.ofList_toList]
  | lone value => simp [points, ofPoints, splitPoints_chars, splitPoints]

theorem toText_eq_ok_iff {s : RawString} {text : String} :
    s.toText = .ok text ↔ s = .text text := by
  cases s <;> simp [toText]

/-- A string is not a text exactly if it holds a lone surrogate. -/
theorem exists_surrogate_iff (s : RawString) :
    (∃ surrogate, .surrogate surrogate ∈ s.points) ↔ ∃ l : LoneString, s = .lone l := by
  cases s with
  | text value => simp [points]
  | lone value =>
      have hfirst : .surrogate value.first ∈ (RawString.lone value).points := by simp [points]
      exact ⟨fun _ => ⟨value, rfl⟩, fun _ => ⟨value.first, hfirst⟩⟩

end RawString

end OriginFacts
