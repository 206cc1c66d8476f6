import OriginFacts.Proofs.Document.Loading
import OriginFacts.Proofs.Draft.Layout

/-!
Drafted lines are found where they were laid out. A search for the text of a line starts at the line
feed in front of it, or at the beginning of the source, so there is no room for another occurrence
before the line itself, whatever the lines have in common.
-/

namespace OriginFacts

namespace Document

/-- Positions one after the other, each looked up from the end of the one before. -/
def readSpans (source : ByteArray) (cursor : Nat) :
    List (Path × Json.Members) → Except LoadError (List Span)
  | [] => .ok []
  | (path, members) :: requests => do
    let span ← readSpan source cursor path members
    let rest ← readSpans source span.stop.toNat requests
    return span :: rest

theorem readSpans_of_placed {source : ByteArray} {cursor : Nat}
    {requests : List (Path × Json.Members)} {ss : List Statement}
    (h : Placed source cursor (requests.map fun request => .object request.2) ss) :
    readSpans source cursor requests = .ok (ss.map (·.span)) := by
  induction requests generalizing cursor ss with
  | nil =>
      cases h
      rfl
  | cons request requests ih =>
      obtain ⟨path, members⟩ := request
      cases h with
      | cons hspan hrest =>
          exact bind_eq_ok_iff.mpr ⟨_, readSpan_eq_ok_iff.mpr hspan,
            bind_eq_ok_iff.mpr ⟨_, ih hrest, rfl⟩⟩

/-- A text that starts with no line feed does not occur at one. -/
theorem head?_of_spells_feed {source : ByteArray} {span : Span} {text : String}
    (h : span.Spells source text) (hne : text ≠ "")
    (hfeed : Span.Spells ⟨span.start, span.start + 1⟩ source "\n") :
    text.toList.head? = some '\n' := by
  obtain ⟨rest, rfl⟩ := hfeed.exists_append h rfl (Int.add_one_le_of_lt (h.start_lt_stop hne))
  simp

theorem spellsNext_of_line {source : ByteArray} {cursor : Nat} {span : Span} {text : String}
    (h : span.Spells source text) (hne : text ≠ "") (hhead : text.toList.head? ≠ some '\n')
    (hcursor : span.start = cursor ∨
      span.start = cursor + 1 ∧ Span.Spells ⟨cursor, cursor + 1⟩ source "\n") :
    SpellsNext source cursor text span where
  spells := h
  behind := by omega
  first other hother hbehind := by
    rcases hcursor with hstart | ⟨hstart, hfeed⟩
    · omega
    · -- The only place before the line is the line feed, where the text cannot start.
      by_contra hbefore
      have hother_start : other.start = cursor := by omega
      rw [← hother_start] at hfeed
      exact hhead (head?_of_spells_feed hother hne hfeed)

end Document

namespace Draft

open Document

theorem placed_place {source : ByteArray} {lines : List DraftLine} {vs : List Json}
    (htexts : ∀ l ∈ lines, l.text ≠ "" ∧ l.text.toList.head? ≠ some '\n')
    (hvs : List.Forall₂ (fun v l => TextOnly v l.text) vs lines) {offset cursor : Nat}
    (hcursor : offset = cursor ∨
      offset = cursor + 1 ∧ Span.Spells ⟨cursor, cursor + 1⟩ source "\n")
    (hlaid : List.Forall₂ (DraftLine.LaidAs source) lines (place offset lines)) :
    Placed source cursor vs (place offset lines) := by
  induction hvs generalizing offset cursor with
  | nil => exact .nil
  | @cons v l vs ls hv _ ih =>
      obtain ⟨⟨hne, hhead⟩, htexts⟩ := List.forall_mem_cons.mp htexts
      cases hlaid with
      | cons hl hls =>
          refine .cons ?_ (ih htexts (.inr ⟨rfl, ?_⟩) hls)
          · refine .text hv.1 l.text hv.2 hne (spellsNext_of_line hl.spells hne hhead ?_)
            rcases hcursor with rfl | ⟨rfl, hfeed⟩
            · exact .inl rfl
            · exact .inr ⟨rfl, hfeed⟩
          · exact hl.feed

end Draft

namespace Document

/-- The document describes the program but for the positions of its statements, of which it gives
the texts of these lines. -/
structure GivesTexts (doc : Json) (p : Program) (lines : List DraftLine) : Prop where
  object : doc.kind = .object
  vars : ObjectOf BindingOf (memberOr doc "variables" (.object [])) p.vars
  structs : ListOf StructOf (memberOr doc "structs" (.list [])) p.structs
  blocks : ListOf BlockOf (memberOr doc "blocks" (.list [])) p.blocks
  texts : List.Forall₂ (fun v l => TextOnly v l.text) (statementsOf doc) lines

end Document

open Document in
/-- Lines that are not empty and do not start with a line feed are found, by their texts alone and
in their order, at the spans that the draft gave them, unless a refused block has left lines between
them. A document that gives only these texts is therefore loaded as the program of the draft. -/
theorem located_as_drafted (ops : List Draft.Operation)
    (hkept : ∀ l ∈ Draft.laidOf ops, l.kept = true)
    (htexts : ∀ l ∈ (Draft.blocksOf ops).flatMap (·.lines),
      l.text ≠ "" ∧ l.text.toList.head? ≠ some '\n') :
    let d := Draft.run ops
    let lines := (Draft.blocksOf ops).flatMap (·.lines)
    (∀ requests : List (Path × Json.Members),
      List.Forall₂ (fun request l => TextOnly (.object request.2) l.text) requests lines →
        readSpans d.source.toUTF8 0 requests = .ok (d.program.statements.map (·.span))) ∧
    ∀ doc, GivesTexts doc d.program lines →
      load doc (some (.text d.source)) = .ok (d.program, d.source) := by
  intro d lines
  have hd := Draft.holds_run ops
  have hplaced : ∀ vs, List.Forall₂ (fun v l => TextOnly v l.text) vs lines →
      Placed d.source.toUTF8 0 vs d.program.statements := by
    intro vs hvs
    have hlaid := hd.lines
    rw [(hd.statements_of_kept hkept).2] at hlaid ⊢
    exact Draft.placed_place htexts hvs (.inl rfl) hlaid
  constructor
  · intro requests hrequests
    apply readSpans_of_placed
    apply hplaced
    rw [List.forall₂_map_left_iff]
    exact hrequests
  · intro doc hdoc
    obtain ⟨members, rfl⟩ := kind_eq_object_iff.mp hdoc.object
    refine load_eq_ok_iff.mpr ⟨members, d.source, rfl, .inl rfl, ?_⟩
    refine readProgram_eq_ok_iff.mpr ⟨⟨hdoc.vars, hdoc.structs, hdoc.blocks, ?_⟩, rfl⟩
    exact hplaced _ hdoc.texts

/-- Two blocks with lines that repeat, contain and overlap one another, and a refused one between
them of which nothing is left. -/
def Draft.Operation.echoes : List Draft.Operation :=
  [.addBlock ⟨"bb0", [⟨"a;a;", none, .unit⟩, ⟨"a;", none, .unit⟩], ["bb1"]⟩,
   .addBlock ⟨"bb1", [⟨.lone ⟨"a;", .lowest, []⟩, none, .unit⟩, ⟨"a;", none, .unit⟩], []⟩,
   .addBlock ⟨"bb1", [⟨";", none, .unit⟩, ⟨"a;a;", none, .unit⟩], []⟩]

theorem located_as_drafted_echoes :
    (∀ l ∈ Draft.laidOf Draft.Operation.echoes, l.kept = true) ∧
    (∀ l ∈ (Draft.blocksOf Draft.Operation.echoes).flatMap (·.lines),
      l.text ≠ "" ∧ l.text.toList.head? ≠ some '\n') ∧
    Document.readSpans (Draft.run Draft.Operation.echoes).source.toUTF8 0
        (["a;a;", "a;", ";", "a;a;"].map fun text =>
          ([], [(.text "text", .str (.text text))])) =
      .ok [⟨0, 4⟩, ⟨5, 7⟩, ⟨8, 9⟩, ⟨10, 14⟩] := by
  have hkept : ∀ l ∈ Draft.laidOf Draft.Operation.echoes, l.kept = true := by
    intro l hl
    rcases hl with _ | ⟨_, _ | ⟨_, _ | ⟨_, _ | ⟨_, ⟨⟩⟩⟩⟩⟩ <;> rfl
  have htexts : ∀ l ∈ (Draft.blocksOf Draft.Operation.echoes).flatMap (·.lines),
      l.text ≠ "" ∧ l.text.toList.head? ≠ some '\n' := by
    decide
  have h := located_as_drafted Draft.Operation.echoes hkept htexts
  have hrequests := h.1
    (["a;a;", "a;", ";", "a;a;"].map fun text => ([], [(.text "text", .str (.text text))]))
    (.cons ⟨rfl, rfl⟩ (.cons ⟨rfl, rfl⟩ (.cons ⟨rfl, rfl⟩ (.cons ⟨rfl, rfl⟩ .nil))))
  exact ⟨hkept, htexts, hrequests⟩

end OriginFacts
