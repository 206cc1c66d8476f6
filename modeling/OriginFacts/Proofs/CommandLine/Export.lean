import OriginFacts.CommandLine.Run
import OriginFacts.Proofs.Files.Tree

/-!
Writing the facts to a directory. Each relation has a file of its own, so what is written for one
relation outlasts the writing of the others.
-/

namespace OriginFacts

theorem Facts.names_tables (f : Facts) :
    f.tables.map (·.1) = Relation.all.map Relation.fileName := by
  rw [Facts.tables, List.map_map]
  rfl

theorem Facts.mem_tables (f : Facts) (r : Relation) :
    (r.fileName, Table.encode (f.rows r)) ∈ f.tables := by
  have hall : r ∈ Relation.all := by cases r <;> decide
  exact List.mem_map_of_mem hall

namespace CommandLine

open Files

theorem run_write (path : Path) (text : String) (t : Tree) :
    (Tree.fileSystem.write path text).run t =
      match t.write path text with
      | .ok t' => (.ok (), t')
      | .error e => (.error e, t) := by
  show (Tree.change (·.write path text)).run t = _
  simp only [Tree.change, bind, StateT.bind, StateT.run, get, getThe, MonadStateOf.get, StateT.get,
    pure]
  cases t.write path text <;> rfl

theorem writeTables_cons {directory : Path} {name text : String} {tables : List (String × String)}
    {t t' : Tree}
    (h : (writeTables Tree.fileSystem directory ((name, text) :: tables)).run t = (.ok (), t')) :
    ∃ between, t.write (directory.child name) text = .ok between ∧
      (writeTables Tree.fileSystem directory tables).run between = (.ok (), t') := by
  rw [writeTables, StateT.run_bind, run_write] at h
  cases hwrite : t.write (directory.child name) text with
  | ok between =>
      rw [hwrite] at h
      exact ⟨between, rfl, h⟩
  | error e =>
      rw [hwrite] at h
      cases h

variable {directory : Path} {tables : List (String × String)} {t t' : Tree}

theorem read_beside_tables {other : String} {bytes : ByteArray} (hother : other ≠ "..")
    (hnames : ∀ table ∈ tables, table.1 ≠ ".." ∧ other ≠ table.1)
    (h : (writeTables Tree.fileSystem directory tables).run t = (.ok (), t'))
    (hread : t.read (directory.child other) = .ok bytes) :
    t'.read (directory.child other) = .ok bytes := by
  induction tables generalizing t with
  | nil => cases h; exact hread
  | cons table tables ih =>
      obtain ⟨between, hwrite, hrest⟩ := writeTables_cons h
      obtain ⟨⟨hname, hne⟩, hnames⟩ := List.forall_mem_cons.mp hnames
      exact ih hnames hrest (Tree.read_of_write_beside hname hother hne hwrite hread)

/-- Tables with different names are all there in the end, each as it was written. -/
theorem read_of_writeTables (hdistinct : (tables.map (·.1)).Nodup)
    (hnames : ∀ table ∈ tables, table.1 ≠ "..")
    (h : (writeTables Tree.fileSystem directory tables).run t = (.ok (), t')) :
    ∀ table ∈ tables, t'.read (directory.child table.1) = .ok table.2.toUTF8 := by
  induction tables generalizing t with
  | nil => simp
  | cons table tables ih =>
      obtain ⟨between, hwrite, hrest⟩ := writeTables_cons h
      obtain ⟨hname, hnames⟩ := List.forall_mem_cons.mp hnames
      obtain ⟨hfresh, hdistinct⟩ := List.nodup_cons.mp hdistinct
      refine List.forall_mem_cons.mpr ⟨?_, ih hdistinct hnames hrest⟩
      -- The first table has to outlast the others: they are written beside it.
      refine read_beside_tables hname (fun other hother => ⟨hnames other hother, ?_⟩) hrest
        (Tree.read_of_write hwrite)
      rintro hsame
      exact hfresh (List.mem_map.mpr ⟨other, hother, hsame.symm⟩)

theorem writeFacts_eq_ok {f : Facts}
    (h : (writeFacts Tree.fileSystem directory f).run t = (.ok (), t')) :
    ∃ between, (writeTables Tree.fileSystem directory f.tables).run between = (.ok (), t') := by
  unfold writeFacts at h
  split at h
  · cases h
  · rw [StateT.run_bind] at h
    rcases hdirectory : (Tree.fileSystem.ensureDirectory directory).run t with ⟨made, between⟩
    rw [hdirectory] at h
    cases made with
    | error e => cases h
    | ok made =>
        refine ⟨between, ?_⟩
        change (_ >>= _ : StateM Tree _).run between = _ at h
        rw [StateT.run_bind] at h
        rcases hwritten : (writeTables Tree.fileSystem directory f.tables).run between with
          ⟨written, last⟩
        rw [hwritten] at h
        cases written with
        | error e => cases h
        | ok written => cases h; rfl

/-- Writing the facts succeeds only if, in the end, each relation has its table in its file. -/
theorem read_of_writeFacts {f : Facts}
    (h : (writeFacts Tree.fileSystem directory f).run t = (.ok (), t')) (r : Relation) :
    t'.read (directory.child r.fileName) = .ok (Table.encode (f.rows r)).toUTF8 := by
  have hdistinct : (f.tables.map (·.1)).Nodup := by
    rw [f.names_tables]
    decide
  have hnames : ∀ table ∈ f.tables, table.1 ≠ ".." := by
    intro table htable
    have hname : table.1 ∈ Relation.all.map Relation.fileName :=
      f.names_tables ▸ List.mem_map_of_mem htable
    obtain ⟨r, _, hr⟩ := List.mem_map.mp hname
    rw [← hr]
    cases r <;> decide
  obtain ⟨between, hwritten⟩ := writeFacts_eq_ok h
  have htable := read_of_writeTables hdistinct hnames hwritten _ (f.mem_tables r)
  exact htable

end CommandLine

end OriginFacts
