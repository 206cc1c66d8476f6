import OriginFacts.Document.Position
import OriginFacts.Proofs.Span

/-!
Positions of statements: given offsets always have a text, and so has the position of a text whose
last character is ASCII. The position of any other text has none, because its last byte, which ends
the statement, is only a part of a character.
-/

namespace OriginFacts.Document

/-! ## Given offsets -/

theorem checkOffsets_eq_ok_iff {source : ByteArray} {start stop : Int} {span : Span} :
    checkOffsets source start stop = .ok span ↔
      span = ⟨start, stop⟩ ∧ ∃ text, span.Covers source text := by
  unfold checkOffsets
  split
  · next hrange =>
    cases htext : (Span.mk start stop).textIn source with
    | ok text =>
        constructor
        · intro h
          cases h
          exact ⟨rfl, text, Span.textIn_eq_ok_iff.mp htext⟩
        · rintro ⟨rfl, _⟩
          rfl
    | error fault =>
        constructor
        · intro h
          cases h
        · rintro ⟨rfl, text, hcovers⟩
          rw [Span.textIn_eq_ok_iff.mpr hcovers] at htext
          cases htext
  · next hrange =>
    constructor
    · intro h
      cases h
    · rintro ⟨rfl, text, hstart, hlt, hstop, _⟩
      exact absurd ⟨hstart, hlt, hstop⟩ hrange

/-! ## The next occurrence of a text -/

/-- The bytes stand at this position of the source. -/
def OccursAt (source bytes : ByteArray) (i : Nat) : Prop :=
  i + bytes.size ≤ source.size ∧ source.extract i (i + bytes.size) = bytes

theorem findFrom_eq_some_iff {source bytes : ByteArray} {start i : Nat} :
    findFrom source bytes start = some i ↔
      start ≤ i ∧ OccursAt source bytes i ∧ ∀ j, start ≤ j → OccursAt source bytes j → i ≤ j := by
  have hbytes : ∀ j, ((source.extract j (j + bytes.size)).data == bytes.data) = true ↔
      source.extract j (j + bytes.size) = bytes := by
    intro j
    rw [beq_iff_eq]
    exact ⟨ByteArray.ext, congrArg ByteArray.data⟩
  unfold findFrom OccursAt
  rw [List.find?_range'_eq_some, List.mem_range'_1, hbytes]
  constructor
  · rintro ⟨hi, hrange, hfirst⟩
    refine ⟨hrange.1, ⟨by omega, hi⟩, ?_⟩
    intro j hj hoccurs
    by_cases hlt : j < i
    · have hnone := hfirst j hj hlt
      rw [(hbytes j).mpr hoccurs.2] at hnone
      cases hnone
    · omega
  · rintro ⟨hstart, ⟨hsize, hi⟩, hfirst⟩
    refine ⟨hi, by omega, ?_⟩
    intro j hj hlt
    rw [Bool.not_eq_true', Bool.eq_false_iff]
    intro hoccurs
    have hle := hfirst j hj ⟨by omega, (hbytes j).mp hoccurs⟩
    omega

theorem findFrom_eq_none_iff {source bytes : ByteArray} {start : Nat} :
    findFrom source bytes start = none ↔ ∀ i, start ≤ i → ¬ OccursAt source bytes i := by
  constructor
  · intro hnone i hi hoccurs
    unfold findFrom at hnone
    rw [List.find?_eq_none] at hnone
    refine hnone i ?_ (beq_iff_eq.mpr (congrArg ByteArray.data hoccurs.2))
    have hsize := hoccurs.1
    rw [List.mem_range'_1]
    omega
  · intro hnone
    rw [Option.eq_none_iff_forall_ne_some]
    intro i hi
    obtain ⟨hstart, hoccurs, _⟩ := findFrom_eq_some_iff.mp hi
    exact hnone i hstart hoccurs

theorem spells_iff {source : ByteArray} {span : Span} {text : String} :
    span.Spells source text ↔
      ∃ i : Nat, span = ⟨i, i + text.utf8ByteSize⟩ ∧ OccursAt source text.toUTF8 i := by
  unfold OccursAt
  rw [String.toUTF8_eq_toByteArray, String.size_toByteArray]
  constructor
  · rintro ⟨hstart, hstop, hle, hbytes⟩
    obtain ⟨i, hi⟩ := Int.eq_ofNat_of_zero_le hstart
    have hspan : span = ⟨i, i + text.utf8ByteSize⟩ := by
      cases span
      simp_all
    subst hspan
    refine ⟨i, rfl, by omega, ?_⟩
    rw [String.toUTF8_eq_toByteArray] at hbytes
    exact hbytes
  · rintro ⟨i, rfl, hsize, hbytes⟩
    refine ⟨Int.natCast_nonneg i, rfl, ?_, ?_⟩
    · show (i + text.utf8ByteSize : Int) ≤ source.size
      omega
    · rw [String.toUTF8_eq_toByteArray]
      exact hbytes

/-- The span covers the first occurrence of the text that starts at the cursor or behind it. -/
structure SpellsNext (source : ByteArray) (cursor : Nat) (text : String) (span : Span) : Prop where
  spells : span.Spells source text
  behind : cursor ≤ span.start
  first : ∀ other : Span, other.Spells source text → cursor ≤ other.start →
    span.start ≤ other.start

theorem spellsNext_iff {source : ByteArray} {cursor : Nat} {text : String} {span : Span} :
    SpellsNext source cursor text span ↔
      ∃ i, findFrom source text.toUTF8 cursor = some i ∧ span = ⟨i, i + text.utf8ByteSize⟩ := by
  simp only [findFrom_eq_some_iff]
  constructor
  · rintro ⟨hspells, hbehind, hfirst⟩
    obtain ⟨i, rfl, hoccurs⟩ := spells_iff.mp hspells
    refine ⟨i, ⟨Int.ofNat_le.mp hbehind, hoccurs, ?_⟩, rfl⟩
    intro j hj hother
    exact Int.ofNat_le.mp (hfirst _ (spells_iff.mpr ⟨j, rfl, hother⟩) (Int.ofNat_le.mpr hj))
  · rintro ⟨i, ⟨hbehind, hoccurs, hfirst⟩, rfl⟩
    refine ⟨spells_iff.mpr ⟨i, rfl, hoccurs⟩, Int.ofNat_le.mpr hbehind, ?_⟩
    intro other hother hle
    obtain ⟨j, rfl, hj⟩ := spells_iff.mp hother
    exact Int.ofNat_le.mpr (hfirst j (Int.ofNat_le.mp hle) hj)

theorem locateText_eq_ok_iff {source : ByteArray} {cursor : Nat} {text : String} {span : Span} :
    locateText source cursor text = .ok span ↔ text ≠ "" ∧ SpellsNext source cursor text span := by
  rw [spellsNext_iff]
  unfold locateText
  by_cases hempty : text = ""
  · simp [hempty]
  · have hnonempty : text.isEmpty = false := by simpa using hempty
    simp only [hnonempty, Bool.false_eq_true, if_false, ne_eq, hempty, not_false_eq_true, true_and]
    cases findFrom source text.toUTF8 cursor <;> simp [eq_comm]

/-- The text is empty, or does not occur from the cursor on. -/
def Unfound (source : ByteArray) (cursor : Nat) (text : String) : Prop :=
  text = "" ∨ ∀ i, cursor ≤ i → ¬ OccursAt source text.toUTF8 i

theorem locateText_eq_error_iff {source : ByteArray} {cursor : Nat} {text : String}
    {cause : Cause} :
    locateText source cursor text = .error cause ↔
      cause = .textNotFound text ∧ Unfound source cursor text := by
  rw [Unfound, ← findFrom_eq_none_iff]
  unfold locateText
  by_cases hempty : text = ""
  · subst hempty
    constructor
    · intro h
      cases h
      exact ⟨rfl, Or.inl rfl⟩
    · rintro ⟨rfl, _⟩
      rfl
  · have hnonempty : text.isEmpty = false := by simpa using hempty
    simp only [hnonempty, Bool.false_eq_true, if_false, hempty, false_or]
    cases findFrom source text.toUTF8 cursor with
    | none => simp [eq_comm]
    | some start => simp

end OriginFacts.Document
