/-! Lookups that may fail: what a chain of them, or a list of them, says when all succeed,
and whose fault it is otherwise. -/

namespace OriginFacts

variable {ε α β : Type}

theorem bind_eq_ok_iff {lookup : Except ε α} {k : α → Except ε β} {b : β} :
    (lookup >>= k) = .ok b ↔ ∃ a, lookup = .ok a ∧ k a = .ok b := by
  cases lookup with
  | ok a => simp [bind, Except.bind]
  | error fault => simp [bind, Except.bind]

theorem bind_eq_error_iff {lookup : Except ε α} {k : α → Except ε β} {fault : ε} :
    (lookup >>= k) = .error fault ↔
      lookup = .error fault ∨ ∃ a, lookup = .ok a ∧ k a = .error fault := by
  cases lookup with
  | ok a => simp [bind, Except.bind]
  | error fault' => simp [bind, Except.bind]

theorem pure_eq_ok_iff {a b : α} : (pure a : Except ε α) = .ok b ↔ a = b := by
  simp [pure, Except.pure]

theorem mapError_eq_ok_iff {ε' : Type} {f : ε → ε'} {lookup : Except ε α} {a : α} :
    lookup.mapError f = .ok a ↔ lookup = .ok a := by
  cases lookup with
  | ok b =>
      constructor
      · intro h
        cases h
        rfl
      · intro h
        cases h
        rfl
  | error cause =>
      constructor
      · intro h
        cases h
      · intro h
        cases h

theorem mapError_eq_error_iff {ε' : Type} {f : ε → ε'} {lookup : Except ε α} {fault : ε'} :
    lookup.mapError f = .error fault ↔ ∃ cause, lookup = .error cause ∧ f cause = fault := by
  cases lookup with
  | ok b =>
      constructor
      · intro h
        cases h
      · rintro ⟨_, ⟨⟩, _⟩
  | error cause =>
      constructor
      · intro h
        cases h
        exact ⟨cause, rfl, rfl⟩
      · rintro ⟨_, ⟨⟩, rfl⟩
        rfl

theorem mapM_eq_ok_iff {lookup : α → Except ε β} {xs : List α} {bs : List β} :
    xs.mapM lookup = .ok bs ↔ xs.map lookup = bs.map .ok := by
  induction xs generalizing bs with
  | nil => cases bs <;> simp [pure_eq_ok_iff]
  | cons x xs ih =>
      simp only [List.mapM_cons, bind_eq_ok_iff, pure_eq_ok_iff, ih]
      cases bs with
      | nil => simp
      | cons b bs => simp

/-- Where `answer` gives what the lookups find, a list of lookups succeeds if each one does, and
finds the answers. -/
theorem mapM_eq_ok_iff_of_answer {lookup : α → Except ε β} (answer : α → β)
    (hanswer : ∀ a b, lookup a = .ok b → answer a = b) {xs : List α} {bs : List β} :
    xs.mapM lookup = .ok bs ↔ (∀ a ∈ xs, lookup a = .ok (answer a)) ∧ bs = xs.map answer := by
  rw [mapM_eq_ok_iff]
  induction xs generalizing bs with
  | nil => simp
  | cons x xs ih =>
      cases bs with
      | nil => simp
      | cons b bs =>
          simp only [List.map_cons, List.cons.injEq, ih, List.mem_cons, forall_eq_or_imp]
          constructor
          · rintro ⟨hb, hrest, rfl⟩
            rw [hanswer x b hb]
            exact ⟨⟨hb, hrest⟩, rfl, rfl⟩
          · rintro ⟨⟨hx, hrest⟩, rfl, rfl⟩
            exact ⟨hx, hrest, rfl⟩

theorem exists_of_mapM_eq_error {lookup : α → Except ε β} {xs : List α} {fault : ε}
    (h : xs.mapM lookup = .error fault) : ∃ a ∈ xs, lookup a = .error fault := by
  induction xs with
  | nil => cases h
  | cons x xs ih =>
      rw [List.mapM_cons] at h
      rcases bind_eq_error_iff.mp h with hx | ⟨b, _, hrest⟩
      · exact ⟨x, List.mem_cons_self .., hx⟩
      · rcases bind_eq_error_iff.mp hrest with hxs | ⟨bs, _, hend⟩
        · obtain ⟨a, ha, hfault⟩ := ih hxs
          exact ⟨a, List.mem_cons_of_mem x ha, hfault⟩
        · cases hend

end OriginFacts
