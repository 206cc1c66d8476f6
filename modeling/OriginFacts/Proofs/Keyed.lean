import Mathlib.Data.List.Nodup
import OriginFacts.Keyed

/-! Entries with different keys stay as they are listed. -/

namespace OriginFacts.Keyed

variable {κ α : Type} [BEq κ] [LawfulBEq κ]

theorem set_of_notMem {entries : List (κ × α)} {key : κ} (h : key ∉ entries.map (·.1))
    (value : α) : set entries key value = entries ++ [(key, value)] := by
  have hnew : entries.any (·.1 == key) = false := by
    rw [List.any_eq_false]
    intro entry hentry hkey
    exact h (beq_iff_eq.mp hkey ▸ List.mem_map_of_mem hentry)
  rw [set, hnew, if_neg Bool.false_ne_true]

theorem foldl_set_of_nodup {acc entries : List (κ × α)} (h : ((acc ++ entries).map (·.1)).Nodup) :
    entries.foldl (fun acc entry => set acc entry.1 entry.2) acc = acc ++ entries := by
  induction entries generalizing acc with
  | nil => simp
  | cons entry entries ih =>
      obtain ⟨key, value⟩ := entry
      have hnew : key ∉ acc.map (·.1) := by
        rw [List.map_append] at h
        intro hkey
        exact List.disjoint_of_nodup_append h hkey (List.mem_cons_self ..)
      rw [List.foldl_cons, set_of_notMem hnew, ih (by simpa using h)]
      simp

theorem ofList_of_nodup {entries : List (κ × α)} (h : (entries.map (·.1)).Nodup) :
    ofList entries = entries := by
  have hall : (([] ++ entries).map Prod.fst).Nodup := h
  exact foldl_set_of_nodup hall

end OriginFacts.Keyed
