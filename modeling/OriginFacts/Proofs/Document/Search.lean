import OriginFacts.Proofs.Boundary
import OriginFacts.Proofs.Document.FirstViolation
import OriginFacts.Proofs.Document.Spans

/-!
Statements found by their texts. Each one stands at the first occurrence of its text behind the
statement before, whatever gave that one its position, so that statements found one after the other
do not overlap. An occurrence never starts or ends inside a character, even where the search starts
inside one.
-/

namespace OriginFacts.Document

/-- The span covers the first occurrence of the text from the cursor on, and cuts no character. -/
structure Leftmost (source : String) (cursor : Nat) (text : String) (span : Span) : Prop where
  spells : span.Spells source.toUTF8 text
  behind : cursor ≤ span.start
  none_before : ∀ i : Nat, cursor ≤ i → i < span.start → ¬ OccursAt source.toUTF8 text.toUTF8 i
  start_boundary : IsBoundary source span.start
  stop_boundary : IsBoundary source span.stop

theorem SpellsNext.leftmost {source : String} {cursor : Nat} {text : String} {span : Span}
    (h : SpellsNext source.toUTF8 cursor text span) (hne : text ≠ "") :
    Leftmost source cursor text span := by
  obtain ⟨hstart, hstop⟩ := h.spells.isBoundary hne
  refine ⟨h.spells, h.behind, ?_, hstart, hstop⟩
  intro i hcursor hlt hoccurs
  have hle : span.start ≤ i := h.first ⟨i, i + text.utf8ByteSize⟩ (spells_iff.mpr ⟨i, rfl, hoccurs⟩)
    (Int.ofNat_le.mpr hcursor)
  omega

/-! ## One statement among others -/

/-- A row of statements falls apart at any index. -/
theorem Placed.split {source : ByteArray} {cursor : Nat} {items : List Json} {ss : List Statement}
    (h : Placed source cursor items ss) (i : Nat) :
    Placed source cursor (items.take i) (ss.take i) ∧
      Placed source (endOf cursor (ss.take i)) (items.drop i) (ss.drop i) := by
  have hlength : (items.take i).length = (ss.take i).length := by
    rw [List.length_take, List.length_take, h.length_eq]
  rw [← items.take_append_drop i, ← ss.take_append_drop i] at h
  exact (Placed.append_iff hlength).mp h

theorem Placed.spanOf {source : ByteArray} {cursor : Nat} {items : List Json} {ss : List Statement}
    (h : Placed source cursor items ss) {k : Nat} {item : Json} {s : Statement}
    (hitem : items[k]? = some item) (hs : ss[k]? = some s) :
    SpanOf source (endOf cursor (ss.take k)) item s.span := by
  obtain ⟨_, hrest⟩ := h.split k
  have hitems : items.drop k = item :: items.drop (k + 1) := by
    rw [List.drop_eq_getElem?_toList_append, hitem]
    rfl
  have hstatements : ss.drop k = s :: ss.drop (k + 1) := by
    rw [List.drop_eq_getElem?_toList_append, hs]
    rfl
  rw [hitems, hstatements] at hrest
  cases hrest with
  | cons hspan _ => exact hspan

/-! ## Statements found one after the other -/

theorem SpanOf.exists_text {source : ByteArray} {cursor : Nat} {item : Json} {span : Span}
    (h : SpanOf source cursor item span) (habsent : item.get? "span" = none) :
    ∃ text, TextOnly item text ∧ text ≠ "" ∧ SpellsNext source cursor text span := by
  cases h with
  | offsets given =>
      rw [given] at habsent
      cases habsent
  | text absent text given nonempty next => exact ⟨text, ⟨absent, given⟩, nonempty, next⟩

theorem Placed.increasing {source : ByteArray} {cursor : Nat} {items : List Json}
    {ss : List Statement} (h : Placed source cursor items ss)
    (htexts : ∀ item ∈ items, item.get? "span" = none) :
    (∀ s ∈ ss, cursor ≤ s.span.start) ∧
      ss.Pairwise fun s t => s.span.start < t.span.start ∧ s.span.stop ≤ t.span.start := by
  induction h with
  | nil => exact ⟨List.forall_mem_nil _, .nil⟩
  | @cons cursor item s items ss hspan _ ih =>
      obtain ⟨hitem, htexts⟩ := List.forall_mem_cons.mp htexts
      obtain ⟨hbehind, hpairs⟩ := ih htexts
      obtain ⟨text, _, hne, hnext⟩ := hspan.exists_text hitem
      have hlt := hnext.spells.start_lt_stop hne
      have hstart := hnext.behind
      -- What follows starts at the end of this statement, hence behind its start and the cursor.
      constructor
      · intro t ht
        rcases List.mem_cons.mp ht with rfl | ht
        · exact hstart
        · have := hbehind t ht
          omega
      · refine List.pairwise_cons.mpr ⟨?_, hpairs⟩
        intro t ht
        have := hbehind t ht
        omega

/-! ## Texts that are not found -/

/-- A statement of the document has this text, which is not found behind the statements before. -/
def Misses (doc : Json) (source : ByteArray) (text : String) : Prop :=
  ∃ before item rest ss, statementsOf doc = before ++ item :: rest ∧ TextOnly item text ∧
    Placed source 0 before ss ∧ Unfound source (endOf 0 ss) text

theorem misses_of_load_eq_error {doc : Json} {override : Option RawString} {path : Path}
    {text : String} (h : load doc override = .error (.malformed ⟨path, .textNotFound text⟩)) :
    Misses doc (sourceOf doc override).toUTF8 text := by
  have hobeys := obeys_load doc override
  rw [h] at hobeys
  obtain ⟨_, ⟨⟩⟩ | hfails := hobeys
  obtain ⟨⟨_, _, _⟩, hfirst, hreports⟩ := hfails.exists_firstUnmet
  cases hreports with
  | malformed _ hblames =>
      obtain ⟨source, before, ss, rfl, rfl, hplaced, hunfound⟩ := hblames
      obtain ⟨rfl, item, rest, hstatements, habsent, hgiven⟩ := hfirst.belongs.follows
      exact ⟨before, item, rest, ss, hstatements, ⟨habsent, hgiven⟩, hplaced, hunfound⟩

theorem Describes.source_eq {doc : Json} {override : Option RawString} {p : Program}
    {source : String} (h : Describes doc override p source) : sourceOf doc override = source := by
  rcases h.given with rfl | ⟨rfl, hsource⟩
  · rfl
  · rw [sourceOf, givenSource, hsource, textOf]

theorem SpellsNext.not_unfound {source : ByteArray} {cursor : Nat} {text : String} {span : Span}
    (h : SpellsNext source cursor text span) (hne : text ≠ "") : ¬ Unfound source cursor text := by
  have hfound : locateText source cursor text = .ok span := locateText_eq_ok_iff.mpr ⟨hne, h⟩
  intro hunfound
  rw [locateText_eq_error_iff.mpr ⟨rfl, hunfound⟩] at hfound
  cases hfound

/-- No program is loaded past a text that is not found. -/
theorem Misses.load_eq_error {doc : Json} {override : Option RawString} {text : String}
    (h : Misses doc (sourceOf doc override).toUTF8 text) : ∃ e, load doc override = .error e := by
  obtain ⟨before, item, rest, ss, hstatements, ⟨habsent, hgiven⟩, hbefore, hunfound⟩ := h
  cases hload : load doc override with
  | error e => exact ⟨e, rfl⟩
  | ok result =>
      obtain ⟨p, source⟩ := result
      have hdoc := load_eq_ok_iff_describes.mp hload
      have hplaced := hdoc.program.placed
      rw [hdoc.source_eq] at hbefore hunfound
      rw [hstatements] at hplaced
      -- The statements before have the same end here, so the search starts where it fails.
      obtain ⟨hfront, hback⟩ := hplaced.split before.length
      rw [List.take_left] at hfront
      rw [List.drop_left, hfront.endOf_eq hbefore] at hback
      generalize p.statements.drop before.length = ts at hback
      cases hback with
      | cons hspan _ =>
          obtain ⟨_, ⟨_, hsame⟩, hne, hnext⟩ := hspan.exists_text habsent
          cases hgiven.symm.trans hsame
          exact absurd hunfound (hnext.not_unfound hne)

theorem readSpan_eq_error_iff {source : ByteArray} {cursor : Nat} {path : Path}
    {members : Json.Members} {text : String} (htext : TextOnly (.object members) text)
    {e : LoadError} :
    readSpan source cursor path members = .error e ↔
      e = .malformed ⟨path.key "text", .textNotFound text⟩ ∧ Unfound source cursor text := by
  obtain ⟨habsent, hgiven⟩ := htext
  rw [Json.get?_object] at habsent hgiven
  unfold readSpan
  rw [habsent, hgiven]
  show atPath (path.key "text") (locateText source cursor text) = .error e ↔ _
  rw [atPath, mapError_eq_error_iff]
  simp only [locateText_eq_error_iff]
  constructor
  · rintro ⟨_, ⟨rfl, hnone⟩, rfl⟩
    exact ⟨rfl, hnone⟩
  · rintro ⟨rfl, hnone⟩
    exact ⟨_, ⟨rfl, hnone⟩, rfl⟩

/-- In a loaded program every statement without offsets stands at the first occurrence of its text
behind the statement before, and such statements in a row follow each other without overlap. A text
is refused exactly if it is empty or does not occur from the cursor on. A document is refused for a
text only if a statement has it and it is not found there, and no such document is loaded. -/
theorem texts_leftmost :
    (∀ doc override p source, load doc override = .ok (p, source) →
      (statementsOf doc).length = p.statements.length ∧
      (∀ k item s, (statementsOf doc)[k]? = some item → p.statements[k]? = some s →
        item.get? "span" = none →
          ∃ text, TextOnly item text ∧
            Leftmost source (endOf 0 (p.statements.take k)) text s.span) ∧
      ∀ i n, (∀ item ∈ ((statementsOf doc).drop i).take n, item.get? "span" = none) →
        ((p.statements.drop i).take n).Pairwise fun s t =>
          s.span.start < t.span.start ∧ s.span.stop ≤ t.span.start) ∧
    (∀ source cursor path members text, TextOnly (.object members) text → ∀ e,
      (readSpan source cursor path members = .error e ↔
        e = .malformed ⟨path.key "text", .textNotFound text⟩ ∧
          Unfound source cursor text)) ∧
    ∀ doc override text,
      ((∃ path, load doc override = .error (.malformed ⟨path, .textNotFound text⟩)) →
        Misses doc (sourceOf doc override).toUTF8 text) ∧
      (Misses doc (sourceOf doc override).toUTF8 text → ∃ e, load doc override = .error e) := by
  refine ⟨?_, ?_, ?_⟩
  · intro doc override p source hload
    have hplaced := (load_eq_ok_iff_describes.mp hload).program.placed
    refine ⟨hplaced.length_eq, ?_, ?_⟩
    · intro k item s hitem hs habsent
      obtain ⟨text, htext, hne, hnext⟩ := (hplaced.spanOf hitem hs).exists_text habsent
      exact ⟨text, htext, hnext.leftmost hne⟩
    · intro i n htexts
      exact (((hplaced.split i).2.split n).1.increasing htexts).2
  · intro source cursor path members text htext e
    exact readSpan_eq_error_iff htext
  · intro doc override text
    refine ⟨?_, Misses.load_eq_error⟩
    rintro ⟨path, hload⟩
    exact misses_of_load_eq_error hload

/-- The first statement has offsets that end inside a character; the others have texts. -/
def splitDoc (texts : List String) : Json :=
  placedDoc "aéa;a;" ((.text "span", .list [.int 0, .int 2]) ::
    texts.map fun text => (.text "text", .str (.text text)))

-- The search for the first text starts inside that character, and a third one finds nothing.
theorem texts_leftmost_splitDoc :
    load (splitDoc ["a;", "a;"]) none = .ok (placedProgram [⟨0, 2⟩, ⟨3, 5⟩, ⟨5, 7⟩], "aéa;a;") ∧
      ¬ IsBoundary "aéa;a;" 2 ∧ Leftmost "aéa;a;" 2 "a;" ⟨3, 5⟩ ∧ Leftmost "aéa;a;" 5 "a;" ⟨5, 7⟩ ∧
      readSpan "aéa;a;".toUTF8 7 [] [("text", .str "a;")] =
        .error (.malformed ⟨[.key "text"], .textNotFound "a;"⟩) ∧
      Misses (splitDoc ["a;", "a;", "a;"]) "aéa;a;".toUTF8 "a;" ∧
      ∃ e, load (splitDoc ["a;", "a;", "a;"]) none = .error e := by
  have hload : load (splitDoc ["a;", "a;"]) none =
      .ok (placedProgram [⟨0, 2⟩, ⟨3, 5⟩, ⟨5, 7⟩], "aéa;a;") := rfl
  have hlost : load (splitDoc ["a;", "a;", "a;"]) none =
      .error (.malformed ⟨[.key "blocks", .index 0, .key "statements", .index 3, .key "text"],
        .textNotFound "a;"⟩) := rfl
  obtain ⟨_, hfound, _⟩ := texts_leftmost.1 _ _ _ _ hload
  obtain ⟨_, ⟨_, ⟨⟩⟩, hfirst⟩ := hfound 1 _ _ rfl rfl rfl
  obtain ⟨_, ⟨_, ⟨⟩⟩, hsecond⟩ := hfound 2 _ _ rfl rfl rfl
  have hmisses := (texts_leftmost.2.2 _ _ _).1 ⟨_, hlost⟩
  refine ⟨hload, ?_, hfirst, hsecond, ?_, hmisses, (texts_leftmost.2.2 _ _ _).2 hmisses⟩
  · intro hboundary
    exact absurd (isBoundary_natCast_iff.mp hboundary) (by decide)
  · refine (texts_leftmost.2.1 _ 7 [] _ "a;" ⟨rfl, rfl⟩ _).mpr ⟨rfl, Or.inr ?_⟩
    intro i hi hoccurs
    have hsize : i + 2 ≤ 7 := hoccurs.1
    omega

end OriginFacts.Document
