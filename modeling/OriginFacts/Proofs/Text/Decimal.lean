/-! Decimal numerals: the digits of a number, and those of an integer behind its sign. -/

namespace OriginFacts.Decimal

variable {n : Nat} {c : Char}

/-! ## Digits -/

theorem isDigit_of_mem_toDigits : ∀ c ∈ Nat.toDigits 10 n, c.isDigit = true := by
  intro c hc
  exact Nat.isDigit_of_mem_toDigits (by decide) (by decide) hc

theorem notMem_toDigits (hc : c.isDigit = false) : c ∉ Nat.toDigits 10 n := by
  intro hmem
  have hdigit := isDigit_of_mem_toDigits c hmem
  rw [hc] at hdigit
  cases hdigit

theorem exists_toDigits (n : Nat) :
    ∃ c tail, Nat.toDigits 10 n = c :: tail ∧ c.isDigit = true := by
  obtain ⟨c, tail, htail⟩ := List.exists_cons_of_ne_nil (Nat.toDigits_ne_nil (n := n) (b := 10))
  refine ⟨c, tail, htail, isDigit_of_mem_toDigits (n := n) c ?_⟩
  rw [htail]
  exact List.mem_cons_self ..

/-- Only the number zero has a zero in front. -/
theorem head?_toDigits_ne (h : n ≠ 0) : (Nat.toDigits 10 n).head? ≠ some '0' := by
  induction n using Nat.strongRecOn with
  | ind n ih =>
      rw [Nat.toDigits_eq_if (by decide)]
      split
      · next hlt =>
        have hall : ∀ k < 10, k ≠ 0 → Nat.digitChar k ≠ '0' := by decide
        simpa using hall n hlt h
      · next hge =>
        have hhead := ih (n / 10) (by omega) (by omega)
        obtain ⟨c, tail, hdigits, _⟩ := exists_toDigits (n / 10)
        rw [hdigits] at hhead ⊢
        exact hhead

/-! ## Signs -/

theorem toList_repr (i : Int) :
    i.repr.toList =
      if 0 ≤ i then Nat.toDigits 10 i.toNat else '-' :: Nat.toDigits 10 (-i).toNat := by
  rw [Int.repr_eq_if]
  split
  · rw [Nat.toList_repr]
  · rw [String.toList_append, Nat.toList_repr]
    rfl

theorem notMem_repr {i : Int} (hc : c.isDigit = false) (hsign : c ≠ '-') : c ∉ i.repr.toList := by
  rw [toList_repr]
  split
  · exact notMem_toDigits hc
  · exact List.not_mem_cons_of_ne_of_not_mem hsign (notMem_toDigits hc)

theorem exists_start_repr (i : Int) :
    ∃ c tail, i.repr.toList = c :: tail ∧ (c.isDigit || c == '-') = true := by
  rw [toList_repr]
  split
  · obtain ⟨c, tail, htail, hc⟩ := exists_toDigits i.toNat
    exact ⟨c, tail, htail, by rw [hc, Bool.true_or]⟩
  · exact ⟨'-', _, rfl, rfl⟩

theorem notMem_of_start {others : List Char} (hc : (c.isDigit || c == '-') = true)
    (hothers : (others.any fun d => d.isDigit || d == '-') = false) : c ∉ others := by
  intro hmem
  exact List.any_eq_false.mp hothers c hmem hc

end OriginFacts.Decimal
