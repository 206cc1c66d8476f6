import OriginFacts.Span

/-! Which spans have a text, and which text it is. -/

namespace OriginFacts

theorem fromUTF8?_eq_some_iff {bytes : ByteArray} {text : String} :
    String.fromUTF8? bytes = some text ↔ text.toUTF8 = bytes := by
  unfold String.fromUTF8?
  split
  · next h =>
    rw [Option.some.injEq, ← String.toByteArray_inj, String.toUTF8_eq_toByteArray, eq_comm]
    rfl
  · next h =>
    constructor
    · intro habs
      cases habs
    · rintro rfl
      exact absurd text.isValidUTF8 h

namespace Span

/-- The text is what the span covers of the source but for the last byte. -/
def Covers (s : Span) (source : ByteArray) (text : String) : Prop :=
  0 ≤ s.start ∧ s.start < s.stop ∧ s.stop ≤ source.size ∧
    text.toUTF8 = source.extract s.start.toNat (s.stop - 1).toNat

theorem textIn_eq_ok_iff {s : Span} {source : ByteArray} {text : String} :
    s.textIn source = .ok text ↔ s.Covers source text := by
  unfold textIn Covers isEmpty
  split
  · next h =>
    constructor
    · intro habs
      cases habs
    · rintro ⟨hstart, hlt, hstop, _⟩
      simp only [decide_eq_true_eq] at h
      omega
  · next h =>
    simp only [decide_eq_true_eq] at h
    have hrange : 0 ≤ s.start ∧ s.start < s.stop ∧ s.stop ≤ (source.size : Int) := by omega
    cases htext : String.fromUTF8? (source.extract s.start.toNat (s.stop - 1).toNat) with
    | some found =>
        have hfound := fromUTF8?_eq_some_iff.mp htext
        constructor
        · intro h
          cases h
          exact ⟨hrange.1, hrange.2.1, hrange.2.2, hfound⟩
        · rintro ⟨_, _, _, h⟩
          rw [fromUTF8?_eq_some_iff.mpr h] at htext
          cases htext
          rfl
    | none =>
        constructor
        · intro habs
          cases habs
        · rintro ⟨_, _, _, h⟩
          rw [fromUTF8?_eq_some_iff.mpr h] at htext
          cases htext

theorem textIn_eq_error_iff {s : Span} {source : ByteArray} {fault : Fault} :
    s.textIn source = .error fault ↔
      (¬ ∃ text, s.Covers source text) ∧ fault = .invalidSpan s.start s.stop source.size := by
  have hfault : ∀ fault', s.textIn source = .error fault' →
      fault' = .invalidSpan s.start s.stop source.size := by
    intro fault' h
    unfold textIn at h
    split at h
    · cases h; rfl
    · split at h
      · cases h
      · cases h; rfl
  simp only [← textIn_eq_ok_iff]
  cases htext : s.textIn source with
  | ok text => simp
  | error fault' => simp [hfault fault' htext, eq_comm]

theorem exists_covers_iff {s : Span} {source : ByteArray} :
    (∃ text, s.Covers source text) ↔
      0 ≤ s.start ∧ s.start < s.stop ∧ s.stop ≤ source.size ∧
        (source.extract s.start.toNat (s.stop - 1).toNat).IsValidUTF8 := by
  constructor
  · rintro ⟨text, hstart, hlt, hstop, htext⟩
    exact ⟨hstart, hlt, hstop, htext ▸ text.isValidUTF8⟩
  · rintro ⟨hstart, hlt, hstop, hvalid⟩
    exact ⟨String.fromUTF8 _ hvalid, hstart, hlt, hstop, rfl⟩

end Span

/-! ## The last byte of a text -/

/-- The text has a last character, and this one is ASCII. -/
def EndsInAscii (text : String) : Prop :=
  ∃ c, text.toList.getLast? = some c ∧ c.val ≤ 127

theorem endsInAscii_push {text : String} {c : Char} : EndsInAscii (text.push c) ↔ c.val ≤ 127 := by
  simp [EndsInAscii]

theorem exists_eq_push {text : String} (h : text ≠ "") :
    ∃ (init : String) (c : Char), text = init.push c := by
  induction text using String.push_induction with
  | empty => exact absurd rfl h
  | push init c _ => exact ⟨init, c, rfl⟩

/-- Without its last byte a text is still a text exactly if that byte was a whole character. -/
theorem isValidUTF8_dropLast_iff {text : String} (h : text ≠ "") :
    (text.toUTF8.extract 0 (text.utf8ByteSize - 1)).IsValidUTF8 ↔ EndsInAscii text := by
  obtain ⟨init, c, rfl⟩ := exists_eq_push h
  have hpos := c.utf8Size_pos
  have hsize : (init.push c).utf8ByteSize = init.utf8ByteSize + c.utf8Size := String.utf8ByteSize_push
  have hboundary : ((init.push c).toUTF8.extract 0 ((init.push c).utf8ByteSize - 1)).IsValidUTF8 ↔
      String.Pos.Raw.IsValid (init.push c) ⟨(init.push c).utf8ByteSize - 1⟩ := by
    rw [String.Pos.Raw.isValid_iff_isValidUTF8_extract_zero, String.toUTF8_eq_toByteArray]
    exact (and_iff_right (Nat.sub_le _ 1)).symm
  rw [endsInAscii_push, ← Char.utf8Size_eq_one_iff, hboundary, String.Pos.Raw.isValid_push]
  constructor
  · rintro (hinit | hend)
    · have hle := hinit.le_utf8ByteSize
      simp only [hsize] at hle
      omega
    · have hidx := congrArg String.Pos.Raw.byteIdx hend
      simp only [hsize, String.Pos.Raw.byteIdx_add_char, String.byteIdx_rawEndPos] at hidx
      omega
  · intro hone
    left
    have hinit : (⟨(init.push c).utf8ByteSize - 1⟩ : String.Pos.Raw) = init.rawEndPos := by
      apply String.Pos.Raw.ext
      simp only [hsize, hone, String.byteIdx_rawEndPos, Nat.add_sub_cancel]
    rw [hinit]
    exact String.Pos.Raw.isValid_rawEndPos

namespace Span

/-- The span covers an occurrence of the text to its last byte. -/
structure Spells (s : Span) (source : ByteArray) (text : String) : Prop where
  start_nonneg : 0 ≤ s.start
  stop_eq : s.stop = s.start + text.utf8ByteSize
  stop_le : s.stop ≤ source.size
  bytes : source.extract s.start.toNat s.stop.toNat = text.toUTF8

theorem Spells.start_lt_stop {s : Span} {source : ByteArray} {text : String}
    (h : s.Spells source text) (hne : text ≠ "") : s.start < s.stop := by
  have hsize : text.utf8ByteSize ≠ 0 := fun hzero => hne (String.utf8ByteSize_eq_zero_iff.mp hzero)
  have := h.stop_eq
  omega

theorem Spells.extract_dropLast {s : Span} {source : ByteArray} {text : String}
    (h : s.Spells source text) (hne : text ≠ "") :
    source.extract s.start.toNat (s.stop - 1).toNat =
      text.toUTF8.extract 0 (text.utf8ByteSize - 1) := by
  have hlt := h.start_lt_stop hne
  have hstart := h.start_nonneg
  have hstop := h.stop_eq
  rw [← h.bytes, ByteArray.extract_extract]
  congr 1
  omega

/-- The span of an occurrence has a text exactly if the occurrence ends in an ASCII character. -/
theorem Spells.exists_covers_iff {s : Span} {source : ByteArray} {text : String}
    (h : s.Spells source text) (hne : text ≠ "") :
    (∃ t, s.Covers source t) ↔ EndsInAscii text := by
  have hlt := h.start_lt_stop hne
  rw [Span.exists_covers_iff, h.extract_dropLast hne, isValidUTF8_dropLast_iff hne]
  exact ⟨fun h => h.2.2.2, fun hascii => ⟨h.start_nonneg, hlt, h.stop_le, hascii⟩⟩

theorem extract_push {init : String} {c : Char} (hc : c.val ≤ 127) :
    (init.push c).toUTF8.extract 0 ((init.push c).utf8ByteSize - 1) = init.toUTF8 := by
  have hone := Char.utf8Size_eq_one_iff.mpr hc
  rw [String.utf8ByteSize_push, hone, Nat.add_sub_cancel]
  simp only [String.toUTF8_eq_toByteArray, String.toByteArray_push]
  exact ByteArray.extract_append_eq_left String.size_toByteArray.symm

/-- The text is then the occurrence without that character. -/
theorem Spells.covers_iff {s : Span} {source : ByteArray} {text t : String}
    (h : s.Spells source text) :
    s.Covers source t ↔ ∃ c : Char, c.val ≤ 127 ∧ text = t.push c := by
  constructor
  · intro hcovers
    have hne : text ≠ "" := by
      rintro rfl
      have hlt := hcovers.2.1
      have hstop := h.stop_eq
      simp only [String.utf8ByteSize_empty] at hstop
      omega
    obtain ⟨init, c, rfl⟩ := exists_eq_push hne
    have hc := endsInAscii_push.mp ((h.exists_covers_iff hne).mp ⟨t, hcovers⟩)
    have hbytes := hcovers.2.2.2
    rw [h.extract_dropLast hne, extract_push hc] at hbytes
    exact ⟨c, hc, by rw [String.toByteArray_inj.mp hbytes]⟩
  · rintro ⟨c, hc, rfl⟩
    have hne : t.push c ≠ "" := by simp
    refine ⟨h.start_nonneg, h.start_lt_stop hne, h.stop_le, ?_⟩
    rw [h.extract_dropLast hne, extract_push hc]

/-! ## Texts side by side -/

/-- A text between two others stands behind the bytes of the first. -/
theorem spells_append (before text after : String) :
    Spells ⟨before.utf8ByteSize, before.utf8ByteSize + text.utf8ByteSize⟩
      (before ++ text ++ after).toUTF8 text where
  start_nonneg := Int.natCast_nonneg _
  stop_eq := rfl
  stop_le := by
    simp only [String.toUTF8_eq_toByteArray, String.size_toByteArray, String.utf8ByteSize_append]
    omega
  bytes := by
    rw [Int.toNat_natCast, ← Int.natCast_add, Int.toNat_natCast, String.append_assoc]
    simp only [String.toUTF8_eq_toByteArray, String.toByteArray_append]
    rw [← Nat.add_zero before.utf8ByteSize, Nat.add_assoc, Nat.zero_add,
      ByteArray.extract_append_size_add' String.size_toByteArray.symm]
    exact ByteArray.extract_append_eq_left String.size_toByteArray.symm

theorem Spells.append {s : Span} {source text : String} (h : s.Spells source.toUTF8 text)
    (more : String) : s.Spells (source ++ more).toUTF8 text := by
  obtain ⟨hstart, hstop, hle, hbytes⟩ := h
  simp only [String.toUTF8_eq_toByteArray, String.size_toByteArray] at hle hbytes
  refine ⟨hstart, hstop, ?_, ?_⟩
  · simp only [String.toUTF8_eq_toByteArray, String.size_toByteArray, String.utf8ByteSize_append]
    omega
  · -- The span ends before what is added, which therefore has no part in it.
    have hnone : more.toByteArray.extract (s.start.toNat - source.utf8ByteSize)
        (s.stop.toNat - source.utf8ByteSize) = ByteArray.empty := by
      rw [ByteArray.extract_eq_empty_iff]
      omega
    simp only [String.toUTF8_eq_toByteArray, String.toByteArray_append, ByteArray.extract_append,
      String.size_toByteArray, hnone, ByteArray.append_empty, hbytes]

/-- Of two texts that stand at one place the longer one starts with the other. -/
theorem Spells.exists_append {s s' : Span} {source : ByteArray} {text text' : String}
    (h : s.Spells source text) (h' : s'.Spells source text') (hstart : s.start = s'.start)
    (hstop : s.stop ≤ s'.stop) : ∃ rest, text' = text ++ rest := by
  have hsize : text.utf8ByteSize ≤ text'.utf8ByteSize := by
    have := h.stop_eq
    have := h'.stop_eq
    omega
  have hbytes : text'.toByteArray.extract 0 text.utf8ByteSize = text.toByteArray := by
    have hnonneg := h.start_nonneg
    have hend := h.stop_eq
    rw [← String.toUTF8_eq_toByteArray, ← String.toUTF8_eq_toByteArray, ← h'.bytes, ← h.bytes,
      ByteArray.extract_extract]
    congr 1 <;> omega
  -- The cut behind the shorter text is between two characters, because that text is whole.
  have hcut : String.Pos.Raw.IsValid text' ⟨text.utf8ByteSize⟩ := by
    rw [String.Pos.Raw.isValid_iff_isValidUTF8_extract_zero]
    refine ⟨hsize, ?_⟩
    rw [hbytes]
    exact text.isValidUTF8
  obtain ⟨first, rest, rfl, hfirst⟩ := String.Pos.Raw.isValid_iff_exists_append.mp hcut
  have hlength : text.utf8ByteSize = first.toByteArray.size := by
    rw [String.size_toByteArray]
    exact congrArg String.Pos.Raw.byteIdx hfirst
  rw [String.toByteArray_append, ByteArray.extract_append_eq_left hlength] at hbytes
  exact ⟨rest, by rw [String.toByteArray_inj.mp hbytes]⟩

end Span

end OriginFacts
