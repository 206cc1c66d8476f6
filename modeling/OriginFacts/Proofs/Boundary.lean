import OriginFacts.Proofs.Span

/-!
Character boundaries of a source. A slice of bytes is a text exactly if it is empty or starts and
ends at boundaries, and a span has a text exactly if its slice without the last byte is one.
-/

namespace OriginFacts

/-! ## Boundaries -/

/-- The source splits into two texts at this offset. -/
def IsBoundary (source : String) (offset : Int) : Prop :=
  ∃ before after : String, source = before ++ after ∧ offset = before.utf8ByteSize

theorem isBoundary_natCast_iff {source : String} {i : Nat} :
    IsBoundary source i ↔ String.Pos.Raw.IsValid source ⟨i⟩ := by
  rw [String.Pos.Raw.isValid_iff_exists_append]
  constructor
  · rintro ⟨before, after, hsource, hi⟩
    refine ⟨before, after, hsource, String.Pos.Raw.ext ?_⟩
    exact Int.ofNat_inj.mp hi
  · rintro ⟨before, after, hsource, hi⟩
    refine ⟨before, after, hsource, ?_⟩
    exact congrArg (fun pos : String.Pos.Raw => (pos.byteIdx : Int)) hi

theorem isValidUTF8_extract_iff {source : String} {start stop : Int} (hstart : 0 ≤ start)
    (hle : start ≤ stop) (hstop : stop ≤ source.utf8ByteSize) :
    (source.toUTF8.extract start.toNat stop.toNat).IsValidUTF8 ↔
      start = stop ∨ IsBoundary source start ∧ IsBoundary source stop := by
  obtain ⟨i, rfl⟩ := Int.eq_ofNat_of_zero_le hstart
  obtain ⟨j, rfl⟩ := Int.eq_ofNat_of_zero_le (Int.le_trans hstart hle)
  have hij : (⟨i⟩ : String.Pos.Raw) ≤ ⟨j⟩ := Int.ofNat_le.mp hle
  have hj : (⟨j⟩ : String.Pos.Raw) ≤ source.rawEndPos := Int.ofNat_le.mp hstop
  rw [isBoundary_natCast_iff, isBoundary_natCast_iff, String.toUTF8_eq_toByteArray]
  refine (String.Pos.Raw.isValidUTF8_extract_iff ⟨i⟩ ⟨j⟩ hij hj).trans (or_congr_left ?_)
  rw [String.Pos.Raw.ext_iff]
  exact Int.ofNat_inj.symm

/-! ## Slices -/

namespace Span

/-- The span has a last byte to drop, stays inside the source and cuts no character. An empty text
may be taken from anywhere. -/
structure Fits (s : Span) (source : String) : Prop where
  start_nonneg : 0 ≤ s.start
  start_lt_stop : s.start < s.stop
  stop_le : s.stop ≤ source.utf8ByteSize
  whole : s.start = s.stop - 1 ∨ IsBoundary source s.start ∧ IsBoundary source (s.stop - 1)

theorem exists_covers_iff_fits {s : Span} {source : String} :
    (∃ text, s.Covers source.toUTF8 text) ↔ s.Fits source := by
  rw [exists_covers_iff, String.toUTF8_eq_toByteArray, String.size_toByteArray,
    ← String.toUTF8_eq_toByteArray]
  constructor
  · rintro ⟨hstart, hlt, hstop, hvalid⟩
    exact ⟨hstart, hlt, hstop,
      (isValidUTF8_extract_iff hstart (by omega) (by omega)).mp hvalid⟩
  · rintro ⟨hstart, hlt, hstop, hwhole⟩
    exact ⟨hstart, hlt, hstop,
      (isValidUTF8_extract_iff hstart (by omega) (by omega)).mpr hwhole⟩

/-- A span has a text exactly if it fits the source. The text is the slice without the last byte,
every other span is named together with the size of the source, and a text counts as its bytes. -/
theorem textOf_exact (s : Span) (source : String) :
    ((∃ text, s.textOf (.text source) = .ok text) ↔ s.Fits source) ∧
    (∀ text, s.textOf (.text source) = .ok text ↔
      s.Fits source ∧ text.toUTF8 = source.toUTF8.extract s.start.toNat (s.stop - 1).toNat) ∧
    (∀ fault, s.textOf (.text source) = .error fault ↔
      ¬ s.Fits source ∧ fault = .invalidSpan s.start s.stop source.utf8ByteSize) ∧
    s.textOf (.encoded source.toUTF8) = s.textOf (.text source) := by
  have hsize : source.toUTF8.size = source.utf8ByteSize := String.size_toByteArray
  have hbytes : s.textOf (.text source) = s.textIn source.toUTF8 := rfl
  rw [hbytes]
  refine ⟨?_, ?_, ?_, rfl⟩
  · simp only [textIn_eq_ok_iff]
    exact exists_covers_iff_fits
  · intro text
    rw [textIn_eq_ok_iff]
    constructor
    · intro hcovers
      exact ⟨exists_covers_iff_fits.mp ⟨text, hcovers⟩, hcovers.2.2.2⟩
    · rintro ⟨hfits, htext⟩
      exact ⟨hfits.start_nonneg, hfits.start_lt_stop, hsize ▸ hfits.stop_le, htext⟩
  · intro fault
    rw [textIn_eq_error_iff, exists_covers_iff_fits, hsize]

/-- An occurrence of a text starts and ends at boundaries. -/
theorem Spells.isBoundary {s : Span} {source text : String} (h : s.Spells source.toUTF8 text)
    (hne : text ≠ "") : IsBoundary source s.start ∧ IsBoundary source s.stop := by
  have hlt := h.start_lt_stop hne
  have hstop : s.stop ≤ source.utf8ByteSize := String.size_toByteArray ▸ h.stop_le
  have hvalid : (source.toUTF8.extract s.start.toNat s.stop.toNat).IsValidUTF8 :=
    h.bytes ▸ text.isValidUTF8
  have hcut := (isValidUTF8_extract_iff h.start_nonneg (Int.le_of_lt hlt) hstop).mp hvalid
  exact hcut.resolve_left (Int.ne_of_lt hlt)

-- The last byte of `é` alone leaves an empty text, both bytes of it leave half a character.
example : textOf ⟨1, 2⟩ (.text "é") = .ok "" ∧
    textOf ⟨0, 2⟩ (.text "é") = .error (.invalidSpan 0 2 2) :=
  ⟨rfl, rfl⟩

end Span

end OriginFacts
