import OriginFacts.Proofs.CommandLine.Export
import OriginFacts.Proofs.Lists

/-!
Tables read back. Lines end at line feeds and columns at tabs; both are escaped inside a column, and
so is the backslash that escapes them, so cutting a table never cuts a column.
-/

namespace OriginFacts.Table

/-! ## Reading -/

/-- What a column stands for: a backslash and the letter behind it are one character. -/
def decodeColumn : List Char → Option (List Char)
  | [] => some []
  | '\\' :: '\\' :: rest => (decodeColumn rest).map ('\\' :: ·)
  | '\\' :: 't' :: rest => (decodeColumn rest).map ('\t' :: ·)
  | '\\' :: 'n' :: rest => (decodeColumn rest).map ('\n' :: ·)
  | c :: rest => if c = '\\' then none else (decodeColumn rest).map (c :: ·)

def decodeRow (line : List Char) : Option (List String) :=
  (line.splitOn '\t').mapM fun column => (decodeColumn column).map String.ofList

def decodeLines (text : List Char) : Option (List (List Char)) :=
  let parts := text.splitOn '\n'
  -- Every line ends with a line feed, so nothing may stand behind the last one.
  if parts.getLast? = some [] then some parts.dropLast else none

def decode (table : String) : Option (List (List String)) := do
  (← decodeLines table.toList).mapM decodeRow

/-! ## Columns -/

theorem encodeChar_cases (c : Char) :
    (c = '\\' ∧ encodeChar c = ['\\', '\\']) ∨ (c = '\t' ∧ encodeChar c = ['\\', 't']) ∨
      (c = '\n' ∧ encodeChar c = ['\\', 'n']) ∨
      (c ≠ '\\' ∧ c ≠ '\t' ∧ c ≠ '\n' ∧ encodeChar c = [c]) := by
  by_cases hslash : c = '\\'
  · subst hslash; exact .inl ⟨rfl, rfl⟩
  by_cases htab : c = '\t'
  · subst htab; exact .inr (.inl ⟨rfl, rfl⟩)
  by_cases hfeed : c = '\n'
  · subst hfeed; exact .inr (.inr (.inl ⟨rfl, rfl⟩))
  refine .inr (.inr (.inr ⟨hslash, htab, hfeed, ?_⟩))
  simp [encodeChar, escapes, List.lookup_cons, beq_eq_false_iff_ne.mpr hslash,
    beq_eq_false_iff_ne.mpr htab, beq_eq_false_iff_ne.mpr hfeed]

theorem decodeColumn_encodeChar (c : Char) (rest : List Char) :
    decodeColumn (encodeChar c ++ rest) = (decodeColumn rest).map (c :: ·) := by
  rcases encodeChar_cases c with ⟨rfl, h⟩ | ⟨rfl, h⟩ | ⟨rfl, h⟩ | ⟨hslash, _, _, h⟩
  · rw [h]; rfl
  · rw [h]; rfl
  · rw [h]; rfl
  · rw [h, List.singleton_append]
    simp [decodeColumn, hslash]

theorem decodeColumn_encode (column : List Char) :
    decodeColumn (column.flatMap encodeChar) = some column := by
  induction column with
  | nil => rfl
  | cons c column ih => rw [List.flatMap_cons, decodeColumn_encodeChar, ih]; rfl

theorem notMem_encode {mark : Char} (hmark : mark = '\t' ∨ mark = '\n') (column : List Char) :
    mark ∉ column.flatMap encodeChar := by
  intro hmem
  obtain ⟨c, _, hc⟩ := List.mem_flatMap.mp hmem
  rcases encodeChar_cases c with ⟨_, h⟩ | ⟨_, h⟩ | ⟨_, h⟩ | ⟨_, htab, hfeed, h⟩
  · rcases hmark with rfl | rfl <;> simp [h] at hc
  · rcases hmark with rfl | rfl <;> simp [h] at hc
  · rcases hmark with rfl | rfl <;> simp [h] at hc
  · rw [h, List.mem_singleton] at hc
    rcases hmark with rfl | rfl
    · exact htab hc.symm
    · exact hfeed hc.symm

/-- A text with one character replaced throughout. -/
def substitute (c : Char) (replacement : List Char) (text : List Char) : List Char :=
  text.flatMap fun d => if d = c then replacement else [d]

/-- Escaping is replacing throughout, if backslashes come first: those that stand for a tab or a line
feed are not replaced again. -/
theorem toList_encodeColumn (column : String) :
    (encodeColumn column).toList =
      substitute '\n' ['\\', 'n'] (substitute '\t' ['\\', 't'] (substitute '\\' ['\\', '\\']
        column.toList)) := by
  rw [encodeColumn, String.toList_ofList]
  -- All four are maps over characters, so it is enough to compare them at one.
  induction column.toList with
  | nil => rfl
  | cons c text ih =>
      have hone : encodeChar c = substitute '\n' ['\\', 'n'] (substitute '\t' ['\\', 't']
          (substitute '\\' ['\\', '\\'] [c])) := by
        rcases encodeChar_cases c with ⟨rfl, h⟩ | ⟨rfl, h⟩ | ⟨rfl, h⟩ | ⟨hslash, htab, hfeed, h⟩
        · rw [h]; rfl
        · rw [h]; rfl
        · rw [h]; rfl
        · simp [h, substitute, hslash, htab, hfeed]
      rw [List.flatMap_cons, ih, hone]
      simp only [substitute, List.flatMap_cons, List.flatMap_nil, List.append_nil,
        List.flatMap_append]

/-! ## Rows and tables -/

/-- A row without the line feed behind it. -/
def encodeLine (row : List String) : List Char :=
  ['\t'].intercalate (row.map fun column => column.toList.flatMap encodeChar)

theorem toList_encodeRow (row : List String) : (encodeRow row).toList = encodeLine row ++ ['\n'] := by
  simp [encodeRow, encodeLine, String.toList_intercalate, encodeColumn, Function.comp_def]

theorem decodeRow_encodeLine {row : List String} (h : row ≠ []) :
    decodeRow (encodeLine row) = some row := by
  have hcolumns : (encodeLine row).splitOn '\t' =
      row.map fun column => column.toList.flatMap encodeChar := by
    refine List.splitOn_intercalate '\t' (fun column hcolumn => ?_) (by simpa using h)
    obtain ⟨text, _, rfl⟩ := List.mem_map.mp hcolumn
    exact notMem_encode (.inl rfl) text.toList
  rw [decodeRow, hcolumns]
  refine mapM_eq_some_of_forall fun column _ => ?_
  rw [decodeColumn_encode, Option.map_some, String.ofList_toList]

theorem notMem_encodeLine (row : List String) : '\n' ∉ encodeLine row := by
  unfold encodeLine
  induction row with
  | nil => simp
  | cons column row ih =>
      have hcolumn := notMem_encode (.inr rfl) column.toList
      cases row with
      | nil => simpa using hcolumn
      | cons next row =>
          rw [List.map_cons, List.map_cons, List.intercalate_cons_cons, List.mem_append,
            List.mem_append, not_or, not_or]
          exact ⟨⟨hcolumn, by decide⟩, ih⟩

theorem decodeLines_lines {lines : List (List Char)} (h : ∀ line ∈ lines, '\n' ∉ line) :
    decodeLines (lines.flatMap (· ++ ['\n'])) = some lines := by
  have hparts : (lines.flatMap (· ++ ['\n'])).splitOn '\n' = lines ++ [[]] := by
    induction lines with
    | nil => rfl
    | cons line lines ih =>
        obtain ⟨hline, hlines⟩ := List.forall_mem_cons.mp h
        rw [List.flatMap_cons, List.append_assoc, List.singleton_append,
          List.splitOn_append_cons_self_of_not_mem hline, ih hlines]
        rfl
  simp [decodeLines, hparts]

/-- A table of rows with at least one column each is read back as it was. -/
theorem decode_encode {rows : List (List String)} (h : ∀ row ∈ rows, row ≠ []) :
    decode (encode rows) = some rows := by
  have htext : (encode rows).toList = (rows.map encodeLine).flatMap (· ++ ['\n']) := by
    simp [encode, String.toList_join, List.flatMap_map, toList_encodeRow]
  have hlines : decodeLines (encode rows).toList = some (rows.map encodeLine) := by
    rw [htext]
    refine decodeLines_lines fun line hline => ?_
    obtain ⟨row, _, rfl⟩ := List.mem_map.mp hline
    exact notMem_encodeLine row
  simp only [decode, hlines, Option.bind_eq_bind, Option.bind_some]
  exact mapM_eq_some_of_forall fun row hrow => decodeRow_encodeLine (h row hrow)

end OriginFacts.Table

namespace OriginFacts

/-! ## Facts -/

theorem Facts.rows_ne_nil {f : Facts} {r : Relation} {row : List String} (h : row ∈ f.rows r) :
    row ≠ [] := by
  cases r <;> obtain ⟨_, _, rfl⟩ := List.mem_map.mp h <;> exact List.cons_ne_nil _ _

theorem Facts.lookup_tables (f : Facts) (r : Relation) :
    f.tables.lookup r.fileName = some (Table.encode (f.rows r)) := by
  cases r <;> rfl

theorem CommandLine.factsJson_get? (f : Facts) (r : Relation) :
    (factsJson f).get? r.name =
      some (.list ((f.rows r).map fun row =>
        .list (row.map fun column => .str (.text column)))) := by
  cases r <;> rfl

/-- Tables lose nothing. Columns are written with backslashes, tabs and line feeds replaced, in this
order; rows of any strings, with at least one column each, are read back as they were. So the text
that is kept for a relation gives back its rows, the same as in the JSON form, and once the facts are
written to a directory, that text is what the file of the relation holds. -/
theorem tables_decode :
    (∀ column, (Table.encodeColumn column).toList =
      Table.substitute '\n' ['\\', 'n'] (Table.substitute '\t' ['\\', 't']
        (Table.substitute '\\' ['\\', '\\'] column.toList))) ∧
    (∀ rows : List (List String), (∀ row ∈ rows, row ≠ []) →
      Table.decode (Table.encode rows) = some rows) ∧
    ∀ (f : Facts) (r : Relation), ∃ text,
      f.tables.lookup r.fileName = some text ∧ Table.decode text = some (f.rows r) ∧
      (CommandLine.factsJson f).get? r.name =
        some (.list ((f.rows r).map fun row =>
          .list (row.map fun column => .str (.text column)))) ∧
      ∀ directory t t',
        (CommandLine.writeFacts Files.Tree.fileSystem directory f).run t = (.ok (), t') →
          t'.read (directory.child r.fileName) = .ok text.toUTF8 := by
  refine ⟨Table.toList_encodeColumn, fun rows h => Table.decode_encode h, fun f r => ?_⟩
  refine ⟨Table.encode (f.rows r), f.lookup_tables r, ?_, CommandLine.factsJson_get? f r, ?_⟩
  · exact Table.decode_encode fun row hrow => Facts.rows_ne_nil hrow
  · intro directory t t' h
    exact CommandLine.read_of_writeFacts h r

/-- A text that holds everything that a table escapes. -/
def Facts.awkward : Facts where
  texts := [⟨"let s = \"\\t\t\";\n\\", "bb0[0]"⟩, ⟨"", "\\n"⟩]

theorem tables_decode_awkward :
    Table.decode (Table.encode [["\\t", "", "\t\\"], [""], ["\\\n", "\n"]]) =
        some [["\\t", "", "\t\\"], [""], ["\\\n", "\n"]] ∧
      ∃ t' text,
        (CommandLine.writeFacts Files.Tree.fileSystem ⟨0, ["out", "deep"]⟩ Facts.awkward).run {} =
          (.ok (), t') ∧
        t'.read ⟨0, ["out", "deep", "node_text.facts"]⟩ = .ok text.toUTF8 ∧
        Table.decode text = some [["let s = \"\\t\t\";\n\\", "bb0[0]"], ["", "\\n"]] := by
  obtain ⟨_, hrows, hfacts⟩ := tables_decode
  refine ⟨hrows _ (by decide), ?_⟩
  obtain ⟨text, _, hdecode, _, hfile⟩ := hfacts Facts.awkward .nodeText
  have hwritten : ∃ t', (CommandLine.writeFacts Files.Tree.fileSystem ⟨0, ["out", "deep"]⟩
      Facts.awkward).run {} = (.ok (), t') := ⟨_, rfl⟩
  obtain ⟨t', ht'⟩ := hwritten
  exact ⟨t', text, ht', hfile _ _ _ ht', hdecode⟩

end OriginFacts
