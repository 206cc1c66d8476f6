import Mathlib.Data.List.Forall2
import OriginFacts.Proofs.Lookup

/-! Lists item by item: pairs of related lists, lists of lookups, and last items. -/

namespace OriginFacts

variable {ε α β : Type}

theorem exists_left_of_forall₂ {R : α → β → Prop} {xs : List α} {ys : List β}
    (h : List.Forall₂ R xs ys) {y : β} (hy : y ∈ ys) : ∃ x ∈ xs, R x y := by
  induction h with
  | nil => cases hy
  | @cons a b xs ys hab _ ih =>
      rcases List.mem_cons.mp hy with rfl | hy
      · exact ⟨a, List.mem_cons_self .., hab⟩
      · obtain ⟨x, hx, hR⟩ := ih hy
        exact ⟨x, List.mem_cons_of_mem a hx, hR⟩

theorem exists_right_of_forall₂ {R : α → β → Prop} {xs : List α} {ys : List β}
    (h : List.Forall₂ R xs ys) {x : α} (hx : x ∈ xs) : ∃ y ∈ ys, R x y :=
  exists_left_of_forall₂ (R := flip R) h.flip hx

theorem mapM_eq_ok_iff_forall₂ {lookup : α → Except ε β} {xs : List α} {bs : List β} :
    xs.mapM lookup = .ok bs ↔ List.Forall₂ (fun x b => lookup x = .ok b) xs bs := by
  rw [mapM_eq_ok_iff, ← List.forall₂_eq_eq_eq, List.forall₂_map_left_iff,
    List.forall₂_map_right_iff]

theorem mapM_eq_some_of_forall {read : β → Option α} {write : α → β} {xs : List α}
    (h : ∀ a ∈ xs, read (write a) = some a) : (xs.map write).mapM read = some xs := by
  induction xs with
  | nil => rfl
  | cons a xs ih =>
      obtain ⟨ha, hxs⟩ := List.forall_mem_cons.mp h
      simp [ha, ih hxs]

theorem getLastD_append (first second : List α) (a : α) :
    (first ++ second).getLastD a = second.getLastD (first.getLastD a) := by
  induction first generalizing a with
  | nil => rfl
  | cons b first ih => rw [List.cons_append, List.getLastD_cons, List.getLastD_cons, ih]

end OriginFacts
