import OriginFacts.Proofs.Document.Loading
import OriginFacts.Proofs.Emission.Declared
import OriginFacts.Proofs.Emission.Outcome
import OriginFacts.Proofs.Lists

/-!
The positions of the statements of a loaded document. Statements come in the order of the values
that describe them, and each one stands where its value says.
-/

namespace OriginFacts.Document

/-! ## Statements and their values -/

/-- A statement stands where its value says: at given offsets, which have a text, or else at an
occurrence of a given text. -/
inductive Located (source : ByteArray) (item : Json) (span : Span) : Prop where
  | offsets (offsets : Json) (given : item.get? "span" = some offsets) (text : String)
      (covers : span.Covers source text)
  | text (absent : item.get? "span" = none) (text : String)
      (given : item.get? "text" = some (.str text)) (nonempty : text ≠ "")
      (spells : span.Spells source text)

/-- The value gives a text whose last character is not ASCII, and no offsets. -/
def EndsWide (item : Json) : Prop :=
  item.get? "span" = none ∧ ∃ (text : String) (c : Char), item.get? "text" = some (.str text) ∧
    text.toList.getLast? = some c ∧ 127 < c.val

namespace Located

variable {source : ByteArray} {item : Json} {span : Span}

theorem range (h : Located source item span) :
    0 ≤ span.start ∧ span.start < span.stop ∧ span.stop ≤ source.size := by
  cases h with
  | offsets offsets given text covers => exact ⟨covers.1, covers.2.1, covers.2.2.1⟩
  | text absent text given nonempty spells =>
      exact ⟨spells.start_nonneg, spells.start_lt_stop nonempty, spells.stop_le⟩

/-- The last byte of a span is no part of its text, so it must not be a part of a character. -/
theorem exists_text_iff (h : Located source item span) :
    (∃ text, span.textIn source = .ok text) ↔ ¬ EndsWide item := by
  simp only [Span.textIn_eq_ok_iff]
  cases h with
  | offsets offsets given text covers =>
      refine ⟨fun _ hwide => ?_, fun _ => ⟨text, covers⟩⟩
      have habsent := hwide.1
      rw [given] at habsent
      cases habsent
  | text absent text given nonempty spells =>
      rw [spells.exists_covers_iff nonempty]
      obtain ⟨init, c, rfl⟩ := exists_eq_push nonempty
      rw [endsInAscii_push, EndsWide, given]
      simp [absent]

end Located

theorem SpanOf.located {source : ByteArray} {cursor : Nat} {item : Json} {span : Span}
    (h : SpanOf source cursor item span) : Located source item span := by
  cases h with
  | offsets given text covers => exact .offsets _ given text covers
  | text absent text given nonempty next => exact .text absent text given nonempty next.spells

theorem Placed.located {source : ByteArray} {cursor : Nat} {items : List Json}
    {ss : List Statement} (h : Placed source cursor items ss) :
    List.Forall₂ (fun item s => Located source item s.span) items ss := by
  induction h with
  | nil => exact .nil
  | cons hspan _ ih => exact .cons hspan.located ih

/-- Every statement of a loaded program stands where its value in the document says. -/
theorem load_located {doc : Json} {override : Option RawString} {p : Program} {source : String}
    (h : load doc override = .ok (p, source)) :
    List.Forall₂ (fun item s => Located source.toUTF8 item s.span) (statementsOf doc)
      p.statements := by
  exact (load_eq_ok_iff_describes.mp h).program.placed.located

/-- A document of one block, with a statement at each of the placements. -/
def placedDoc (source : RawString) (placements : Json.Members) : Json :=
  .object [("source", .str source),
    ("blocks", .list [.object [("name", .str "bb0"),
      ("statements", .list (placements.map fun placement =>
        .object [("expr", .object [("number", .int 0)]), placement]))]])]

/-- The program of such a document, once its statements have spans. -/
def placedProgram (spans : List Span) : Program :=
  ⟨[], [], [⟨"bb0", spans.map fun span => ⟨none, .number 0, span⟩, []⟩]⟩

/-- The spans of a loaded program lie inside its source and are not empty. Each one has a text
exactly if its statement was not placed by a text with a last character beyond ASCII. Without such
texts, emission never reports a position; with one of them, it never succeeds. -/
theorem load_spans {doc : Json} {override : Option RawString} {p : Program} {source : String}
    (h : load doc override = .ok (p, source)) :
    (∀ s ∈ p.statements,
      0 ≤ s.span.start ∧ s.span.start < s.span.stop ∧ s.span.stop ≤ source.utf8ByteSize) ∧
    List.Forall₂ (fun item s =>
      (∃ text, s.span.textIn source.toUTF8 = .ok text) ↔ ¬ EndsWide item)
      (statementsOf doc) p.statements ∧
    ((∀ item ∈ statementsOf doc, ¬ EndsWide item) → ∀ naming start stop size,
      Extraction.facts ⟨p, source.toUTF8, naming⟩ ≠ .error (.invalidSpan start stop size)) ∧
    ((∃ item ∈ statementsOf doc, EndsWide item) → ∀ naming f,
      Extraction.facts ⟨p, source.toUTF8, naming⟩ ≠ .ok f) := by
  have hlocated := load_located h
  refine ⟨?_, hlocated.imp fun _ _ hs => hs.exists_text_iff, ?_, ?_⟩
  · intro s hs
    obtain ⟨item, _, hitem⟩ := exists_left_of_forall₂ hlocated hs
    exact hitem.range
  · intro hnarrow naming start stop size hfault
    obtain ⟨s, hs, hspan⟩ := Extraction.exists_textIn_of_facts_eq_error hfault rfl
    obtain ⟨item, hmem, hitem⟩ := exists_left_of_forall₂ hlocated hs
    obtain ⟨text, htext⟩ := hitem.exists_text_iff.mpr (hnarrow item hmem)
    rw [htext] at hspan
    cases hspan
  · rintro ⟨item, hmem, hwide⟩ naming f hfacts
    obtain ⟨s, hs, hitem⟩ := exists_right_of_forall₂ hlocated hmem
    obtain ⟨hanswers, _⟩ := Extraction.facts_eq_ok_iff.mp hfacts
    exact hitem.exists_text_iff.mp (hanswers.admits hs).span hwide

-- Characters beyond ASCII do no harm before the end of a text.
theorem load_spans_inner_wide :
    let doc := placedDoc "é;é;\n" [("text", .str "é;"), ("span", .list [.int 3, .int 6])]
    let p := placedProgram [⟨0, 3⟩, ⟨3, 6⟩]
    load doc none = .ok (p, "é;é;\n") ∧ (∀ item ∈ statementsOf doc, ¬ EndsWide item) ∧
      ∀ naming start stop size,
        Extraction.facts ⟨p, "é;é;\n".toUTF8, naming⟩ ≠ .error (.invalidSpan start stop size) := by
  intro doc p
  have hload : load doc none = .ok (p, "é;é;\n") := rfl
  have hitems : ∀ item ∈ statementsOf doc, ¬ EndsWide item := by
    intro item hitem
    rcases hitem with _ | ⟨_, _ | ⟨_, ⟨⟩⟩⟩
    · rintro ⟨_, text, c, htext, hlast, hwide⟩
      cases htext
      cases hlast
      exact absurd hwide (by decide)
    · rintro ⟨habsent, _⟩
      cases habsent
  exact ⟨hload, hitems, (load_spans hload).2.2.1 hitems⟩

-- The same position is refused if it is given by offsets, and accepted if it is given by its text.
theorem load_wide_text :
    load (placedDoc "é" [("span", .list [.int 0, .int 2])]) none =
        .error (.malformed ⟨[.key "blocks", .index 0, .key "statements", .index 0, .key "span"],
          .splitsCharacter 0 2⟩) ∧
      load (placedDoc "é" [("text", .str "é")]) none = .ok (placedProgram [⟨0, 2⟩], "é") ∧
      ∀ naming, Extraction.facts ⟨placedProgram [⟨0, 2⟩], "é".toUTF8, naming⟩ =
        .error (.invalidSpan 0 2 2) := by
  refine ⟨rfl, rfl, ?_⟩
  intro naming
  cases naming <;> rfl

end OriginFacts.Document
