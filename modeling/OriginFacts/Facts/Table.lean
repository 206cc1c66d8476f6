import OriginFacts.Facts.Basic

/-!
Relations as tab-separated tables, one line for each row. Columns are Unicode texts, so every table
has bytes.
-/

namespace OriginFacts.Table

/-- The characters that would end a column or a row, and the backslash, with the letters that
stand for them. -/
def escapes : List (Char × Char) :=
  [('\\', '\\'), ('\t', 't'), ('\n', 'n')]

/-- One character of a column. -/
def encodeChar (c : Char) : List Char :=
  match escapes.lookup c with
  | some letter => ['\\', letter]
  | none => [c]

/-- A column. -/
def encodeColumn (column : String) : String :=
  String.ofList (column.toList.flatMap encodeChar)

/-- A row: its columns behind each other with tabs between them, and a line feed. -/
def encodeRow (row : List String) : String :=
  "\t".intercalate (row.map encodeColumn) ++ "\n"

/-- A table. -/
def encode (rows : List (List String)) : String :=
  String.join (rows.map encodeRow)

end OriginFacts.Table

namespace OriginFacts

/-- The file that a relation is kept in. -/
def Relation.fileName (r : Relation) : String :=
  r.name ++ ".facts"

/-- The tables of all relations, each with the name of its file. -/
def Facts.tables (f : Facts) : List (String × String) :=
  Relation.all.map fun r => (r.fileName, Table.encode (f.rows r))

end OriginFacts
