import OriginFacts.Files.Tree

/-!
Files kept in memory. A written file reads back as it was written, every walk that led somewhere still
leads there, and the files beside it stay as they are.
-/

namespace OriginFacts.Files.Tree

variable {t t' : Tree}

/-! ## Entries -/

theorem lookup_replace (entries : List (Route × Entry)) (route other : Route) (entry : Entry) :
    (entries.map fun e => if e.1 == route then (route, entry) else e).lookup other =
      if other = route then (entries.lookup route).map fun _ => entry else entries.lookup other := by
  have hskip : ∀ {a b : Route}, a ≠ b → (a == b) = false := beq_eq_false_iff_ne.mpr
  simp only [beq_iff_eq]
  induction entries with
  | nil => simp
  | cons e entries ih =>
      obtain ⟨key, old⟩ := e
      rw [List.map_cons]
      by_cases hkey : key = route
      · subst hkey
        by_cases hother : other = key
        · simp [hother]
        · simp [List.lookup_cons, ih, hother, hskip hother]
      · by_cases hother : other = key
        · simp [hkey, hother]
        · simp [List.lookup_cons, hkey, ih, hskip hother, hskip (Ne.symm hkey)]

theorem lookup_insert (t : Tree) (route other : Route) (entry : Entry) :
    (t.insert route entry).entries.lookup other =
      if other = route then some entry else t.entries.lookup other := by
  unfold insert
  split
  · next hthere =>
    obtain ⟨e, he, hroute⟩ := List.any_eq_true.mp hthere
    obtain ⟨old, hold⟩ : ∃ old, t.entries.lookup route = some old := by
      rw [← Option.isSome_iff_exists, List.lookup_isSome_iff]
      exact ⟨e, he, by rw [beq_iff_eq] at hroute ⊢; exact hroute.symm⟩
    simp only [lookup_replace, hold, Option.map_some]
  · next hfree =>
    by_cases hother : other = route
    · subst hother
      have hnone : t.entries.lookup other = none := by
        rw [List.lookup_eq_none_iff]
        intro e he
        rw [bne_iff_ne]
        rintro rfl
        exact hfree (List.any_eq_true.mpr ⟨e, he, beq_self_eq_true e.1⟩)
      simp [List.lookup_append, hnone]
    · have hskip : (other == route) = false := beq_eq_false_iff_ne.mpr hother
      simp [List.lookup_append, List.lookup_cons, hother, hskip]

theorem entryAt?_insert {route : Route} (hfree : t.entryAt? route ≠ some .directory) (entry : Entry)
    (other : Route) :
    (t.insert route entry).entryAt? other =
      if other = route then some entry else t.entryAt? other := by
  unfold entryAt? at hfree ⊢
  rw [lookup_insert]
  by_cases hother : other = route
  · subst hother
    -- The roots are directories whatever the entries say, so the new entry would not show there.
    split at hfree
    · exact absurd rfl hfree
    · next hplain => simp [hplain]
  · simp [hother]

/-! ## Walks -/

/-- Walks lead through directories, so a file put where none stands is in no one's way. -/
theorem walk_insert {route : Route} (hfree : t.entryAt? route ≠ some .directory) (bytes : ByteArray)
    {start place : Route} {names : List String} (h : t.walk start names = .ok place) :
    (t.insert route (.file bytes)).walk start names = .ok place := by
  induction names generalizing start with
  | nil => exact h
  | cons name names ih =>
      rw [walk] at h ⊢
      split at h
      · next hstart =>
        have hne : start ≠ route := by
          rintro rfl
          exact hfree hstart
        rw [entryAt?_insert hfree, if_neg hne, hstart]
        split at h
        · cases h
        · next hshort =>
          simp only [hshort]
          exact ih h
      · cases h
      · cases h

theorem find_insert {route : Route} (hfree : t.entryAt? route ≠ some .directory) (bytes : ByteArray)
    {place : Route} {path : Path} (h : t.find path = .ok place) :
    (t.insert route (.file bytes)).find path = .ok place := by
  unfold find at h ⊢
  split at h
  · cases h
  · next hshort =>
    rw [if_neg hshort]
    exact walk_insert hfree bytes h

theorem walk_append_singleton {start place : Route} {names : List String} {name : String}
    (h : t.walk start (names ++ [name]) = .ok place) :
    ∃ directory, t.walk start names = .ok directory ∧ place = step directory name := by
  induction names generalizing start with
  | nil =>
      rw [List.nil_append, walk] at h
      split at h
      · split at h
        · cases h
        · cases h; exact ⟨start, rfl, rfl⟩
      · cases h
      · cases h
  | cons first names ih =>
      rw [List.cons_append, walk] at h
      rw [walk]
      split at h
      · next hstart =>
        split at h
        · cases h
        · next hshort =>
          simp only [hshort]
          exact ih h
      · cases h
      · cases h

/-- Two names in one directory lead to two places. -/
theorem find_child_ne {directory : Path} {name other : String} {place place' : Route}
    (hname : name ≠ "..") (hother : other ≠ "..") (hne : name ≠ other)
    (h : t.find (directory.child name) = .ok place)
    (h' : t.find (directory.child other) = .ok place') : place ≠ place' := by
  unfold find at h h'
  split at h
  · cases h
  split at h'
  · cases h'
  -- Both walks come through one directory, and differ in their last step.
  obtain ⟨d, hd, rfl⟩ := walk_append_singleton h
  obtain ⟨d', hd', rfl⟩ := walk_append_singleton h'
  have hsame : d = d' := Except.ok.inj (hd.symm.trans hd')
  simp [step, hname, hother, hsame, hne]

/-! ## Reading and writing -/

theorem read_eq_ok_iff {path : Path} {bytes : ByteArray} :
    t.read path = .ok bytes ↔
      ∃ place, t.find path = .ok place ∧ t.entryAt? place = some (.file bytes) := by
  unfold read
  cases t.find path with
  | error refusal => simp
  | ok place =>
      cases hentry : t.entryAt? place with
      | none => simp [hentry]
      | some entry => cases entry <;> simp [hentry]

theorem write_eq_ok_iff {path : Path} {text : String} :
    t.write path text = .ok t' ↔
      ∃ place, t.find path = .ok place ∧ t.entryAt? place ≠ some .directory ∧
        t' = t.insert place (.file text.toUTF8) := by
  unfold write
  cases t.find path with
  | error refusal => simp
  | ok place =>
      cases hentry : t.entryAt? place with
      | none => simp [hentry, eq_comm]
      | some entry => cases entry <;> simp [hentry, eq_comm]

theorem read_of_write {path : Path} {text : String} (h : t.write path text = .ok t') :
    t'.read path = .ok text.toUTF8 := by
  obtain ⟨place, hplace, hfree, rfl⟩ := write_eq_ok_iff.mp h
  refine read_eq_ok_iff.mpr ⟨place, find_insert hfree _ hplace, ?_⟩
  rw [entryAt?_insert hfree, if_pos rfl]

theorem read_of_write_beside {directory : Path} {name other : String} {text : String}
    {bytes : ByteArray} (hname : name ≠ "..") (hother : other ≠ "..") (hne : other ≠ name)
    (h : t.write (directory.child name) text = .ok t')
    (hread : t.read (directory.child other) = .ok bytes) :
    t'.read (directory.child other) = .ok bytes := by
  obtain ⟨place, hplace, hfree, rfl⟩ := write_eq_ok_iff.mp h
  obtain ⟨place', hplace', hentry⟩ := read_eq_ok_iff.mp hread
  refine read_eq_ok_iff.mpr ⟨place', find_insert hfree _ hplace', ?_⟩
  rw [entryAt?_insert hfree, if_neg (find_child_ne hother hname hne hplace' hplace), hentry]

end OriginFacts.Files.Tree
