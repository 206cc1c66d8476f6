import Mathlib.Data.List.Chain
import Mathlib.Data.List.Forall2
import OriginFacts.Draft
import OriginFacts.Proofs.Emission.Declared
import OriginFacts.Proofs.Lists
import OriginFacts.Proofs.Text.RawString

/-!
The layout of drafts. Whatever was done to a draft, refused operations included, its source holds
lines that were laid out one after the other, and each statement covers its own line. So a statement
has a text exactly if its line ends in an ASCII character, and emission then finds the line without
it. The lines are those of the blocks, unless a block was refused at a line without bytes: the lines
in front of that one stay, and belong to no block.
-/

namespace OriginFacts

/-- A block with lines of a kind. -/
structure DraftBlock (Line : Type) where
  name : String
  lines : List Line
  successors : List String

/-- The block, if all of its lines have bytes. -/
def DraftBlock.encoded (b : DraftBlock GivenLine) : Except EncodeFault (DraftBlock DraftLine) := do
  return ⟨b.name, ← b.lines.mapM GivenLine.line, b.successors⟩

namespace Draft

/-- What can be done to a draft: types come ready or as texts. -/
inductive Operation where
  | addVariable (b : Binding)
  | declare (name ty : String)
  | declareAll (entries : List (String × String))
  | addStruct (decl : StructDecl)
  | declareStruct (name : String) (slots : List String) (fields : List (String × String))
  | addBlock (b : DraftBlock GivenLine)
  | build

/-- The draft after a change, which is not made if it is refused. -/
def attempt (d : Draft) : Except Surface.Error Draft → Draft × Option Surface.Error
  | .ok changed => (changed, none)
  | .error e => (d, some e)

namespace Operation

/-- The draft after an operation, and why it was refused if it was. -/
def apply (d : Draft) : Operation → Draft × Option DraftError
  | .addVariable b => (d.addVariable b, none)
  | .declare name ty => (d.attempt (d.declare name ty)).map id (·.map .form)
  | .declareAll entries => (d.declareAll entries).map id (·.map .form)
  | .addStruct decl => (d.addStruct decl, none)
  | .declareStruct name slots fields =>
    (d.attempt (d.declareStruct name slots fields)).map id (·.map .form)
  | .addBlock b => (d.addBlock b.name b.lines b.successors).map id (·.map .unencodable)
  | .build => (d, none)

def block? : Operation → Option (DraftBlock GivenLine)
  | .addBlock b => some b
  | _ => none

end Operation

/-- The draft after operations. A refused one does not keep those behind it from being tried. -/
def run (ops : List Operation) : Draft :=
  ops.foldl (fun d op => (op.apply d).1) {}

/-- A line in the source of a draft. It is kept if its block was not refused. -/
structure LaidLine where
  line : DraftLine
  kept : Bool

/-- The lines up to the first that has no bytes. -/
def encodedLines : List GivenLine → List DraftLine
  | [] => []
  | given :: lines =>
    match given.line with
    | .ok line => line :: encodedLines lines
    | .error _ => []

/-- What a block leaves in the source. -/
def laidLines (b : DraftBlock GivenLine) : List LaidLine :=
  (encodedLines b.lines).map fun line => ⟨line, b.encoded.isOk⟩

/-- All lines in the source after operations, those of refused blocks included. -/
def laidOf (ops : List Operation) : List LaidLine :=
  (ops.filterMap Operation.block?).flatMap laidLines

/-- Of given blocks, those that are not refused. -/
def acceptedOf (given : List (DraftBlock GivenLine)) : List (DraftBlock DraftLine) :=
  given.filterMap fun b => b.encoded.toOption

/-- The blocks that operations add. -/
def blocksOf (ops : List Operation) : List (DraftBlock DraftLine) :=
  acceptedOf (ops.filterMap Operation.block?)

/-- Lines in order, each with a line feed behind it. -/
def layout (lines : List DraftLine) : String :=
  String.join (lines.map fun l => l.text ++ "\n")

/-- Lines as statements, the first one at an offset. -/
def place (offset : Nat) : List DraftLine → List Statement
  | [] => []
  | l :: ls =>
    let stop := offset + l.text.utf8ByteSize
    ⟨l.target, l.expr, ⟨offset, stop⟩⟩ :: place (stop + 1) ls

/-- Of statements for lines, those whose lines are kept. -/
def keptOf (lines : List LaidLine) (ss : List Statement) : List Statement :=
  ((lines.zip ss).filter (·.1.kept)).map (·.2)

end Draft

/-- The statement is the line, at a place of the source where the line and a line feed stand. -/
structure DraftLine.LaidAs (source : ByteArray) (l : DraftLine) (s : Statement) : Prop where
  target : s.target = l.target
  expr : s.expr = l.expr
  spells : s.span.Spells source l.text
  feed : Span.Spells ⟨s.span.stop, s.span.stop + 1⟩ source "\n"

structure DraftBlock.LaidAs (source : ByteArray) (given : DraftBlock DraftLine) (b : Block) :
    Prop where
  name : b.name = given.name
  lines : List.Forall₂ (DraftLine.LaidAs source) given.lines b.statements
  successors : b.successors = given.successors

/-- More source does not move the lines that are there. -/
theorem DraftBlock.LaidAs.append {source : String} {given : DraftBlock DraftLine} {b : Block}
    (h : given.LaidAs source.toUTF8 b) (after : String) :
    given.LaidAs (source ++ after).toUTF8 b :=
  ⟨h.name, h.lines.imp fun _ _ hl => ⟨hl.target, hl.expr, hl.spells.append _, hl.feed.append _⟩,
    h.successors⟩

namespace Draft

/-! ## Lines -/

@[simp]
theorem layout_nil : layout [] = "" := rfl

@[simp]
theorem layout_cons (l : DraftLine) (ls : List DraftLine) :
    layout (l :: ls) = l.text ++ "\n" ++ layout ls := by
  simp [layout]

@[simp]
theorem layout_append (ls ls' : List DraftLine) : layout (ls ++ ls') = layout ls ++ layout ls' := by
  simp [layout]

theorem encodedLines_of_mapM {given : List GivenLine} {lines : List DraftLine}
    (h : given.mapM GivenLine.line = .ok lines) : encodedLines given = lines := by
  rw [mapM_eq_ok_iff_forall₂] at h
  induction h with
  | nil => rfl
  | cons hline _ ih => rw [encodedLines, hline, ih]

theorem layLines_eq (d : Draft) (given : List GivenLine) :
    d.layLines given =
      ({ d with source := d.source ++ layout (encodedLines given)
                offset := d.offset + (layout (encodedLines given)).utf8ByteSize },
        (given.mapM GivenLine.line).map (place d.offset)) := by
  induction given generalizing d with
  | nil => simp [layLines, encodedLines, place, pure, Except.pure, Except.map]
  | cons g gs ih =>
      rw [layLines, encodedLines, List.mapM_cons]
      cases hline : g.line with
      | error fault => simp [bind, Except.bind, Except.map]
      | ok l =>
          simp only [ih, layLine, layout_cons, String.append_assoc, String.utf8ByteSize_append,
            Nat.add_assoc]
          cases gs.mapM GivenLine.line with
          | error fault => rfl
          | ok ls => rfl

theorem place_append (offset : Nat) (ls ls' : List DraftLine) :
    place offset (ls ++ ls') =
      place offset ls ++ place (offset + (layout ls).utf8ByteSize) ls' := by
  induction ls generalizing offset with
  | nil => simp [place]
  | cons l ls ih =>
      simp only [List.cons_append, place, ih, layout_cons, String.utf8ByteSize_append,
        Nat.add_assoc]
      rfl

@[simp]
theorem length_place (offset : Nat) (lines : List DraftLine) :
    (place offset lines).length = lines.length := by
  induction lines generalizing offset with
  | nil => rfl
  | cons l ls ih => simp [place, ih]

/-- Lines that are laid out between two texts stand where they are placed. -/
theorem laidAs_place (before after : String) (lines : List DraftLine) :
    List.Forall₂ (DraftLine.LaidAs (before ++ layout lines ++ after).toUTF8) lines
      (place before.utf8ByteSize lines) := by
  induction lines generalizing before with
  | nil => exact .nil
  | cons l ls ih =>
      have hline := Span.spells_append before l.text ("\n" ++ layout ls ++ after)
      have hfeed := Span.spells_append (before ++ l.text) "\n" (layout ls ++ after)
      have hrest := ih (before ++ l.text ++ "\n")
      simp only [String.utf8ByteSize_append, String.append_assoc, layout_cons, place] at *
      exact .cons ⟨rfl, rfl, hline, hfeed⟩ hrest

/-- One byte, the line feed, stands between two lines. -/
theorem isChain_place (offset : Nat) (lines : List DraftLine) :
    (place offset lines).IsChain fun s next => next.span.start = s.span.stop + 1 := by
  induction lines generalizing offset with
  | nil => exact .nil
  | cons l ls ih =>
      cases ls with
      | nil => exact .singleton _
      | cons next ls => exact .cons_cons rfl (ih _)

/-! ## Lines of refused blocks -/

theorem keptOf_append {ls ls' : List LaidLine} {ss ss' : List Statement}
    (h : ls.length = ss.length) :
    keptOf (ls ++ ls') (ss ++ ss') = keptOf ls ss ++ keptOf ls' ss' := by
  rw [keptOf, List.zip_append h, List.filter_append, List.map_append]
  rfl

theorem keptOf_of_forall {ls : List LaidLine} {ss : List Statement}
    (hlength : ls.length = ss.length) (h : ∀ l ∈ ls, l.kept = true) : keptOf ls ss = ss := by
  have hall : ∀ pair ∈ ls.zip ss, pair.1.kept = true := by
    rintro ⟨l, s⟩ hpair
    exact h l (List.of_mem_zip hpair).1
  rw [keptOf, List.filter_eq_self.mpr hall, List.map_snd_zip hlength.ge]

theorem keptOf_of_refused {ls : List LaidLine} (ss : List Statement)
    (h : ∀ l ∈ ls, l.kept = false) : keptOf ls ss = [] := by
  have hnone : ∀ pair ∈ ls.zip ss, ¬ pair.1.kept = true := by
    rintro ⟨l, s⟩ hpair
    rw [h l (List.of_mem_zip hpair).1]
    exact Bool.false_ne_true
  rw [keptOf, List.filter_eq_nil_iff.mpr hnone, List.map_nil]

theorem encoded_eq_ok_iff {b : DraftBlock GivenLine} {block : DraftBlock DraftLine} :
    b.encoded = .ok block ↔
      ∃ lines, b.lines.mapM GivenLine.line = .ok lines ∧ ⟨b.name, lines, b.successors⟩ = block := by
  simp only [DraftBlock.encoded, bind_eq_ok_iff, pure_eq_ok_iff]

theorem laidLines_of_ok {b : DraftBlock GivenLine} {block : DraftBlock DraftLine}
    (h : b.encoded = .ok block) : laidLines b = block.lines.map (⟨·, true⟩) := by
  obtain ⟨lines, hlines, rfl⟩ := encoded_eq_ok_iff.mp h
  rw [laidLines, h, encodedLines_of_mapM hlines]
  rfl

theorem kept_of_mem_laidLines {b : DraftBlock GivenLine} {kept : Bool}
    (h : b.encoded.isOk = kept) : ∀ l ∈ laidLines b, l.kept = kept := by
  intro l hl
  obtain ⟨line, _, rfl⟩ := List.mem_map.mp hl
  exact h

/-- The kept lines are those of the blocks. -/
theorem kept_flatMap_laidLines (given : List (DraftBlock GivenLine)) :
    ((given.flatMap laidLines).filter (·.kept)).map (·.line) =
      (acceptedOf given).flatMap (·.lines) := by
  unfold acceptedOf
  induction given with
  | nil => rfl
  | cons b given ih =>
      rw [List.flatMap_cons, List.filter_append, List.map_append, ih]
      cases hb : b.encoded with
      | ok block =>
          rw [laidLines_of_ok hb, List.filter_map, List.map_map]
          simp [hb, Except.toOption, Function.comp_def]
      | error fault =>
          have hnone : (laidLines b).filter (·.kept) = [] := by
            rw [List.filter_eq_nil_iff]
            intro l hl
            rw [kept_of_mem_laidLines (congrArg Except.isOk hb) l hl]
            exact Bool.false_ne_true
          rw [hnone]
          simp [hb, Except.toOption]

/-! ## Operations -/

/-- Declarations, made or refused, touch neither the source nor the blocks. -/
theorem declareAll_frame (d : Draft) (entries : List (String × String)) :
    ∃ vars, (d.declareAll entries).1 = { d with vars := vars } := by
  induction entries generalizing d with
  | nil => exact ⟨d.vars, rfl⟩
  | cons entry entries ih =>
      obtain ⟨name, ty⟩ := entry
      rw [declareAll]
      cases hparse : Surface.parseTy ty with
      | ok parsed =>
          obtain ⟨vars, hrest⟩ := ih (d.addVariable ⟨name, parsed⟩)
          refine ⟨vars, ?_⟩
          simp only [declare, hparse]
          exact hrest
      | error e =>
          refine ⟨d.vars, ?_⟩
          simp only [declare, hparse]
          rfl

theorem Operation.apply_frame {op : Operation} (h : op.block? = none) (d : Draft) :
    ∃ vars structs, (op.apply d).1 = { d with vars := vars, structs := structs } := by
  cases op with
  | addVariable b => exact ⟨_, _, rfl⟩
  | declare name ty =>
      simp only [apply, Draft.declare]
      cases Surface.parseTy ty with
      | ok parsed => exact ⟨_, _, rfl⟩
      | error e => exact ⟨_, _, rfl⟩
  | declareAll entries =>
      obtain ⟨vars, hvars⟩ := d.declareAll_frame entries
      exact ⟨vars, d.structs, hvars⟩
  | addStruct decl => exact ⟨_, _, rfl⟩
  | declareStruct name slots fields =>
      simp only [apply, Draft.declareStruct]
      cases slots.mapM Surface.parseSlot with
      | error e => exact ⟨_, _, rfl⟩
      | ok parsed =>
          cases Binding.ofTexts fields with
          | error e => exact ⟨_, _, rfl⟩
          | ok bindings => exact ⟨_, _, rfl⟩
  | addBlock b => cases h
  | build => exact ⟨_, _, rfl⟩

/-- Of a refused block the lines up to the one without bytes are laid out. -/
theorem addBlock_fst (d : Draft) (b : DraftBlock GivenLine) :
    (d.addBlock b.name b.lines b.successors).1 =
      { d with source := d.source ++ layout ((laidLines b).map (·.line))
               offset := d.offset + (layout ((laidLines b).map (·.line))).utf8ByteSize
               blocks := d.blocks ++ b.encoded.toOption.toList.map fun block =>
                 ⟨block.name, place d.offset block.lines, block.successors⟩ } := by
  have hlines : (laidLines b).map (·.line) = encodedLines b.lines := by
    simp [laidLines, Function.comp_def]
  rw [addBlock, layLines_eq, hlines, DraftBlock.encoded]
  cases b.lines.mapM GivenLine.line with
  | ok lines => rfl
  | error fault => simp [Except.map, Except.toOption, bind, Except.bind]

/-- A block is refused exactly if one of its lines has no bytes. -/
theorem addBlock_refused_iff {d : Draft} {b : DraftBlock GivenLine} {fault : EncodeFault} :
    (d.addBlock b.name b.lines b.successors).2 = some fault ↔ b.encoded = .error fault := by
  rw [addBlock, layLines_eq, DraftBlock.encoded]
  cases b.lines.mapM GivenLine.line with
  | ok lines => simp [Except.map, bind, Except.bind, pure, Except.pure]
  | error fault' => simp [Except.map, bind, Except.bind]

/-- The draft consists of what was given, laid out. -/
structure Holds (d : Draft) (given : List (DraftBlock GivenLine)) : Prop where
  source : d.source = layout ((given.flatMap laidLines).map (·.line))
  offset : d.offset = d.source.utf8ByteSize
  blocks : List.Forall₂ (DraftBlock.LaidAs d.source.toUTF8) (acceptedOf given) d.blocks
  statements : d.program.statements =
    keptOf (given.flatMap laidLines) (place 0 ((given.flatMap laidLines).map (·.line)))

/-- What a block adds to the statements: those of its lines, unless it is refused. -/
theorem keptOf_laidLines (b : DraftBlock GivenLine) (offset : Nat) :
    keptOf (laidLines b) (place offset ((laidLines b).map (·.line))) =
      b.encoded.toOption.toList.flatMap fun block => place offset block.lines := by
  cases hb : b.encoded with
  | ok block =>
      have hkept := kept_of_mem_laidLines (congrArg Except.isOk hb)
      rw [keptOf_of_forall (by simp) hkept, laidLines_of_ok hb, List.map_map]
      simp [Except.toOption, Function.comp_def]
  | error fault =>
      have hrefused := kept_of_mem_laidLines (congrArg Except.isOk hb)
      rw [keptOf_of_refused _ hrefused]
      rfl

theorem Holds.addBlock {d : Draft} {given : List (DraftBlock GivenLine)} (h : d.Holds given)
    (b : DraftBlock GivenLine) :
    (d.addBlock b.name b.lines b.successors).1.Holds (given ++ [b]) := by
  rw [addBlock_fst]
  constructor
  · simp [h.source]
  · simp [h.offset]
  · rw [acceptedOf, List.filterMap_append]
    refine List.rel_append (h.blocks.imp fun _ _ hold => hold.append _) ?_
    cases hb : b.encoded with
    | error fault => simp [hb, Except.toOption]
    | ok block =>
        have hnew := laidAs_place d.source "" block.lines
        rw [String.append_empty, ← h.offset] at hnew
        simp only [List.filterMap_cons, hb, Except.toOption, List.filterMap_nil,
          Option.toList_some, List.map_cons, List.map_nil, laidLines_of_ok hb, List.map_map,
          Function.comp_def, List.map_id']
        exact .cons ⟨rfl, hnew, rfl⟩ .nil
  · have hold := h.statements
    simp only [program, Program.statements] at hold ⊢
    rw [List.flatMap_append, hold, List.flatMap_append, List.map_append, place_append,
      keptOf_append (by simp), List.flatMap_singleton, keptOf_laidLines, Nat.zero_add, ← h.source,
      ← h.offset, List.flatMap_map]

theorem Holds.apply {d : Draft} {given : List (DraftBlock GivenLine)} (h : d.Holds given)
    (op : Operation) : (op.apply d).1.Holds (given ++ op.block?.toList) := by
  cases hop : op.block? with
  | some b =>
      cases op <;> cases hop
      exact h.addBlock b
  | none =>
      obtain ⟨vars, structs, hframe⟩ := op.apply_frame hop d
      rw [hframe, Option.toList_none, List.append_nil]
      exact ⟨h.source, h.offset, h.blocks, h.statements⟩

theorem holds_run (ops : List Operation) : (run ops).Holds (ops.filterMap Operation.block?) := by
  have hstart : Holds {} [] := ⟨rfl, rfl, .nil, rfl⟩
  suffices h : ∀ d given, Holds d given →
      (ops.foldl (fun d op => (op.apply d).1) d).Holds
        (given ++ ops.filterMap Operation.block?) from h {} [] hstart
  induction ops with
  | nil =>
      intro d given h
      simpa using h
  | cons op ops ih =>
      intro d given h
      have hrest := ih _ _ (h.apply op)
      rw [List.foldl_cons]
      cases hop : op.block? <;> simpa [hop] using hrest

section

variable {d : Draft} {given : List (DraftBlock GivenLine)}

theorem Holds.lines (h : d.Holds given) :
    List.Forall₂ (DraftLine.LaidAs d.source.toUTF8)
      ((acceptedOf given).flatMap (·.lines)) d.program.statements :=
  List.rel_flatMap h.blocks fun _ _ hblock => hblock.lines

/-- All lines of the source stand where they are placed, those of refused blocks included. -/
theorem Holds.laid (h : d.Holds given) :
    List.Forall₂ (fun l s => l.line.LaidAs d.source.toUTF8 s) (given.flatMap laidLines)
      (place 0 ((given.flatMap laidLines).map (·.line))) := by
  have hlaid := laidAs_place "" "" ((given.flatMap laidLines).map (·.line))
  rw [String.append_empty, String.empty_append, ← h.source, List.forall₂_map_left_iff] at hlaid
  exact hlaid

/-- If no block was refused with lines laid out, the lines are those of the blocks. -/
theorem Holds.statements_of_kept (h : d.Holds given)
    (hkept : ∀ l ∈ given.flatMap laidLines, l.kept = true) :
    (given.flatMap laidLines).map (·.line) =
        (acceptedOf given).flatMap (·.lines) ∧
      d.program.statements =
        place 0 ((acceptedOf given).flatMap (·.lines)) := by
  have hlines := kept_flatMap_laidLines given
  rw [List.filter_eq_self.mpr hkept] at hlines
  rw [← hlines, h.statements]
  exact ⟨rfl, keptOf_of_forall (by simp) hkept⟩

end

end Draft

/-! ## Texts of statements -/

namespace DraftLine

variable {source : ByteArray} {l : DraftLine} {s : Statement}

theorem LaidAs.textIn_eq_ok_iff (h : l.LaidAs source s) {text : String} :
    s.span.textIn source = .ok text ↔ ∃ c : Char, c.val ≤ 127 ∧ l.text = text.push c := by
  rw [Span.textIn_eq_ok_iff, h.spells.covers_iff]

theorem LaidAs.text_eq_dropLast (h : l.LaidAs source s) {text : String}
    (htext : s.span.textIn source = .ok text) : text = String.ofList l.text.toList.dropLast := by
  obtain ⟨c, _, hl⟩ := h.textIn_eq_ok_iff.mp htext
  simp [hl]

theorem LaidAs.textIn_eq_error_iff (h : l.LaidAs source s) :
    s.span.textIn source = .error (.invalidSpan s.span.start s.span.stop source.size) ↔
      l.text = "" ∨ ∃ c : Char, l.text.toList.getLast? = some c ∧ 127 < c.val := by
  rw [Span.textIn_eq_error_iff, and_iff_left rfl]
  simp only [h.spells.covers_iff]
  by_cases hempty : l.text = ""
  · simp [hempty]
  · obtain ⟨init, c, hl⟩ := exists_eq_push hempty
    simp [hl]

end DraftLine

/-- A successful emission finds the lines without their last characters. -/
theorem Draft.Holds.texts {d : Draft} {given : List (DraftBlock GivenLine)} (h : d.Holds given)
    {naming : Naming} {f : Facts}
    (hfacts : Extraction.facts ⟨d.program, d.source.toUTF8, naming⟩ = .ok f) :
    f.texts.map (·.text) =
      ((Draft.acceptedOf given).flatMap (·.lines)).map fun l =>
        String.ofList l.text.toList.dropLast := by
  obtain ⟨hanswers, rfl⟩ := Extraction.facts_eq_ok_iff.mp hfacts
  have hcovered := (List.forall₂_and_left _ _).mpr ⟨hanswers.text, h.lines.flip⟩
  rw [← Program.points_map_statement, List.forall₂_map_left_iff] at hcovered
  rw [(Answers.describes_facts _ _).texts, List.map_map, ← List.forall₂_eq_eq_eq,
    List.forall₂_map_left_iff, List.forall₂_map_right_iff]
  exact hcovered.imp fun s l hl => hl.2.text_eq_dropLast (Span.textIn_eq_ok_iff.mpr hl.1)

/-- After any operations on a draft, refused ones included, the source is every line that was laid
out with a line feed behind it, the offset is its length, every block has its statements where its
lines stand, and one byte lies between a line and the next. A block is refused exactly if a line of
it has no bytes; what was laid out of it before stays, and belongs to no block. Otherwise the lines
are those of the blocks. A statement has no text exactly if its line is empty or ends beyond ASCII,
and what emission finds are the lines without their last characters. -/
theorem draft_layout (ops : List Draft.Operation) :
    let d := Draft.run ops
    let source := d.source.toUTF8
    let blocks := Draft.blocksOf ops
    let lines := blocks.flatMap (·.lines)
    let laid := Draft.laidOf ops
    d.source = String.join (laid.map fun l => l.line.text ++ "\n") ∧
    d.offset = d.source.utf8ByteSize ∧
    List.Forall₂ (DraftBlock.LaidAs source) blocks d.program.blocks ∧
    (∃ ss : List Statement, List.Forall₂ (fun l s => l.line.LaidAs source s) laid ss ∧
      (ss.IsChain fun s next => next.span.start = s.span.stop + 1) ∧
      d.program.statements = Draft.keptOf laid ss) ∧
    (laid.filter (·.kept)).map (·.line) = lines ∧
    ((∀ l ∈ laid, l.kept = true) →
      d.source = String.join (lines.map fun l => l.text ++ "\n") ∧
      d.program.statements.IsChain fun s next => next.span.start = s.span.stop + 1) ∧
    (∀ b fault, ((Draft.Operation.addBlock b).apply d).2 = some (.unencodable fault) ↔
      b.encoded = .error fault) ∧
    List.Forall₂ (fun l s =>
      s.span.textIn source = .error (.invalidSpan s.span.start s.span.stop source.size) ↔
        l.text = "" ∨ ∃ c : Char, l.text.toList.getLast? = some c ∧ 127 < c.val)
      lines d.program.statements ∧
    ∀ naming f, Extraction.facts ⟨d.program, source, naming⟩ = .ok f →
      f.texts.map (·.text) = lines.map fun l => String.ofList l.text.toList.dropLast := by
  intro d source blocks lines laid
  have h := Draft.holds_run ops
  refine ⟨?_, h.offset, h.blocks, ⟨_, h.laid, Draft.isChain_place 0 _, h.statements⟩,
    Draft.kept_flatMap_laidLines _, ?_, ?_, ?_, fun naming f => h.texts⟩
  · rw [h.source, Draft.layout, List.map_map]
    rfl
  · intro hkept
    obtain ⟨hlines, hstatements⟩ := h.statements_of_kept hkept
    refine ⟨?_, ?_⟩
    · rw [h.source, hlines]
      rfl
    · rw [hstatements]
      exact Draft.isChain_place 0 lines
  · intro b fault
    rw [← Draft.addBlock_refused_iff (d := d)]
    simp [Draft.Operation.apply]
  · exact h.lines.imp fun l s hl => hl.textIn_eq_error_iff

namespace Draft

/-- Two blocks with a line beyond ASCII, two declarations that are refused, and a block that is
refused at its second line. -/
def Operation.sample : List Operation :=
  [.declareAll [("x", "i32"), ("y", "&")],
   .addBlock ⟨"bb0", [⟨"x = ü;", some ⟨false, "x", []⟩, .number 0⟩], ["bb1"]⟩,
   .declareStruct "S" ["'"] [],
   .addBlock ⟨"bb2", [⟨"y;", none, .unit⟩, ⟨.lone ⟨"", .lowest, [.char ';']⟩, none, .unit⟩], []⟩,
   .addBlock ⟨"bb1", [⟨"x;", none, .access .copy ⟨false, "x", []⟩⟩], []⟩]

def sample : Draft where
  vars := [⟨"x", .i32⟩]
  blocks := [⟨"bb0", [⟨some ⟨false, "x", []⟩, .number 0, ⟨0, 7⟩⟩], ["bb1"]⟩,
    ⟨"bb1", [⟨none, .access .copy ⟨false, "x", []⟩, ⟨11, 13⟩⟩], []⟩]
  source := "x = ü;\ny;\nx;\n"
  offset := 14

theorem run_sample : run Operation.sample = sample := by
  have hty : Surface.parseTy "i32" = .ok .i32 := by with_unfolding_all rfl
  have hbroken : Surface.parseTy "&" = .error ⟨.ty, "&", 1⟩ := by with_unfolding_all rfl
  have hslot : Surface.parseSlot "'" = .error ⟨.slot, "'", 1⟩ := by with_unfolding_all rfl
  simp only [run, Operation.sample, List.foldl, Operation.apply, declareAll, declare, declareStruct,
    List.mapM_cons, hty, hbroken, hslot]
  rfl

end Draft

theorem draft_layout_sample :
    let d := Draft.run Draft.Operation.sample
    let f : Facts := { edges := [⟨"bb0[0]", "bb1[0]"⟩]
                       texts := [⟨"x = ü", "bb0[0]"⟩, ⟨"x", "bb1[0]"⟩] }
    Extraction.facts ⟨d.program, d.source.toUTF8, .verbose⟩ = .ok f ∧
      f.texts.map (·.text) = ["x = ü", "x"] := by
  intro d f
  have hfacts : Extraction.facts ⟨d.program, d.source.toUTF8, .verbose⟩ = .ok f := by
    rw [show d = Draft.sample from Draft.run_sample]
    rfl
  have h := draft_layout Draft.Operation.sample
  exact ⟨hfacts, h.2.2.2.2.2.2.2.2 .verbose f hfacts⟩

-- The first line of a refused block is in the source, and in no block.
theorem draft_leftover :
    let lines : List GivenLine :=
      [⟨"x;", none, .number 0⟩, ⟨.lone ⟨"", .lowest, [.char ';']⟩, none, .number 0⟩]
    let d := Draft.run [.addBlock ⟨"bb0", lines, []⟩]
    d.source = "x;\n" ∧ d.offset = 3 ∧ d.program.statements = [] :=
  ⟨rfl, rfl, rfl⟩

end OriginFacts
