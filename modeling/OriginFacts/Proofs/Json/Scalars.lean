import Mathlib.Data.List.Basic
import Mathlib.Data.List.TakeDrop
import OriginFacts.Json.Printer
import OriginFacts.Json.Reader
import OriginFacts.Proofs.Text.Decimal
import OriginFacts.Proofs.Text.Quoted
import OriginFacts.Proofs.Text.RawString

/-!
Strings and whole numbers of JSON text read back. A string ends at its quote whatever follows; a
number has to be followed by something that does not belong to one.
-/

namespace OriginFacts.Json

/-! ## Units of sixteen bits -/

theorem padded_add_two (k n : Nat) :
    Hex.padded (k + 2) n = Hex.padded (k + 1) (n / 16) ++ [Nat.digitChar (n % 16)] := by
  unfold Hex.padded Hex.digits
  rw [Nat.toDigits_eq_if (by decide)]
  split
  · next hlt =>
    rw [Nat.div_eq_of_lt hlt, Nat.mod_eq_of_lt hlt]
    simp [List.replicate_succ']
  · simp

/-- Four digits write every number of sixteen bits. -/
theorem padded_four {n : Nat} (h : n < 0x10000) :
    Hex.padded 4 n = [Nat.digitChar (n / 16 / 16 / 16), Nat.digitChar (n / 16 / 16 % 16),
      Nat.digitChar (n / 16 % 16), Nat.digitChar (n % 16)] := by
  have hfirst : Hex.padded 1 (n / 16 / 16 / 16) = [Nat.digitChar (n / 16 / 16 / 16)] := by
    unfold Hex.padded Hex.digits
    rw [Nat.toDigits_of_lt_base (by omega)]
    rfl
  rw [padded_add_two, padded_add_two, padded_add_two, hfirst]
  rfl

theorem unit?_digitChar {n : Nat} (h : n < 0x10000) :
    unit? (Nat.digitChar (n / 16 / 16 / 16)) (Nat.digitChar (n / 16 / 16 % 16))
      (Nat.digitChar (n / 16 % 16)) (Nat.digitChar (n % 16)) = some n := by
  rw [unit?, Hex.value?_digitChar (by omega), Hex.value?_digitChar (Nat.mod_lt _ (by decide)),
    Hex.value?_digitChar (Nat.mod_lt _ (by decide)), Hex.value?_digitChar (Nat.mod_lt _ (by decide))]
  simp only [Option.bind_eq_bind, Option.bind_some, pure, Option.some.injEq]
  omega

theorem renderUnit_append (n : Nat) (rest : List Char) :
    renderUnit n ++ rest = '\\' :: 'u' :: (Hex.padded 4 n ++ rest) := rfl

/-- A unit that is half of no pair reads as its own code point. -/
theorem readUnicode_unit {n : Nat} {rest : List Char} (h : n < 0x10000)
    (hhigh : isHighSurrogate n = false) (hrest : rest ≠ []) :
    readUnicode (Hex.padded 4 n ++ rest) = .ok (pointOfUnit n, rest) := by
  obtain ⟨e, tail, rfl⟩ := List.exists_cons_of_ne_nil hrest
  rw [padded_four h]
  simp only [List.cons_append, List.nil_append, readUnicode, unit?_digitChar h, hhigh]

theorem readUnicode_pair {high low : Nat} {rest : List Char} (hhigh : isHighSurrogate high = true)
    (hlow : isLowSurrogate low = true) (hrest : rest ≠ []) :
    readUnicode (Hex.padded 4 high ++ (renderUnit low ++ rest)) =
      .ok (.char (charOfPair high low), rest) := by
  obtain ⟨e, tail, rfl⟩ := List.exists_cons_of_ne_nil hrest
  have hhigh' : high < 0x10000 := by simp [isHighSurrogate] at hhigh; omega
  have hlow' : low < 0x10000 := by simp [isLowSurrogate] at hlow; omega
  rw [renderUnit, padded_four hhigh', padded_four hlow']
  simp only [List.cons_append, List.nil_append, readUnicode, unit?_digitChar hhigh',
    unit?_digitChar hlow', hhigh, hlow, if_true]

/-- Code points leave out the halves of pairs. -/
theorem toNat_lt_or_gt (c : Char) : c.toNat < 0xD800 ∨ 0xDFFF < c.toNat ∧ c.toNat < 0x110000 :=
  c.valid

theorem pointOfUnit_toNat (c : Char) : pointOfUnit c.toNat = .char c := by
  have hvalid := toNat_lt_or_gt c
  rw [pointOfUnit, dif_neg (by omega), Char.ofNat_toNat]

theorem charOfPair_halves {c : Char} (h : 0x10000 ≤ c.toNat) :
    charOfPair (0xD800 + (c.toNat - 0x10000) / 0x400) (0xDC00 + (c.toNat - 0x10000) % 0x400) = c := by
  have hsum : 0x10000 + (0xD800 + (c.toNat - 0x10000) / 0x400 - 0xD800) * 0x400 +
      (0xDC00 + (c.toNat - 0x10000) % 0x400 - 0xDC00) = c.toNat := by omega
  rw [charOfPair, hsum, Char.ofNat_toNat]

/-! ## Strings -/

/-- How a character is written: by a letter behind a backslash, as it is, or in one or two units. -/
inductive Written (c : Char) : List Char → Prop where
  | escape {letter : Char} : letter ≠ 'u' → escapes.lookup letter = some c → Written c ['\\', letter]
  | verbatim : c ≠ '"' → c ≠ '\\' → ' ' ≤ c → Written c [c]
  | unit : c.toNat < 0x10000 → Written c (renderUnit c.toNat)
  | pair : 0x10000 ≤ c.toNat → Written c
      (renderUnit (0xD800 + (c.toNat - 0x10000) / 0x400) ++
        renderUnit (0xDC00 + (c.toNat - 0x10000) % 0x400))

theorem written_renderChar (c : Char) : Written c (renderChar c) := by
  unfold renderChar
  split
  · next h =>
    obtain rfl | rfl := h
    · exact .escape (by decide) rfl
    · exact .escape (by decide) rfl
  next hquoted =>
  obtain ⟨hquote, hbackslash⟩ := not_or.mp hquoted
  split
  · next h => exact .escape (by decide) (h ▸ rfl)
  split
  · next h => exact .escape (by decide) (h ▸ rfl)
  split
  · next h => exact .escape (by decide) (h ▸ rfl)
  split
  · next h => exact .escape (by decide) (h ▸ rfl)
  split
  · next h => exact .escape (by decide) (h ▸ rfl)
  split
  · next h => exact .verbatim hquote hbackslash h.1
  split
  · next h => exact .unit h
  · next h => exact .pair (Nat.le_of_not_lt h)

section

variable (opening : List Char) (fuel : Nat) {rest : List Char}

theorem readPoints_escape {letter c : Char} (hletter : letter ≠ 'u')
    (h : escapes.lookup letter = some c) :
    readPoints opening (fuel + 1) ('\\' :: letter :: rest) =
      (readPoints opening fuel rest).map fun result => (.char c :: result.1, result.2) := by
  rw [readPoints, h]
  · cases readPoints opening fuel rest <;> rfl
  · intro hu
    exact absurd hu hletter

theorem readPoints_unicode {text : List Char} {point : CodePoint}
    (h : readUnicode text = .ok (point, rest)) :
    readPoints opening (fuel + 1) ('\\' :: 'u' :: text) =
      (readPoints opening fuel rest).map fun result => (point :: result.1, result.2) := by
  rw [readPoints, h]
  change (readPoints opening fuel rest >>= _) = _
  cases readPoints opening fuel rest <;> rfl

theorem readPoints_verbatim {c : Char} (hquote : c ≠ '"') (hbackslash : c ≠ '\\') (h : ' ' ≤ c) :
    readPoints opening (fuel + 1) (c :: rest) =
      (readPoints opening fuel rest).map fun result => (.char c :: result.1, result.2) := by
  rw [readPoints, if_neg (Char.not_lt.mpr h)]
  · cases readPoints opening fuel rest <;> rfl
  · exact hquote
  · exact fun h _ => hbackslash h
  · exact fun _ h _ => hbackslash h
  · exact fun _ _ h _ => hbackslash h

/-- A character is read back in one step, if something follows it. -/
theorem readPoints_renderChar (c : Char) (hrest : rest ≠ []) :
    readPoints opening (fuel + 1) (renderChar c ++ rest) =
      (readPoints opening fuel rest).map fun result => (.char c :: result.1, result.2) := by
  have hvalid := toNat_lt_or_gt c
  have hwritten := written_renderChar c
  generalize renderChar c = text at hwritten
  cases hwritten with
  | escape hletter hlookup => exact readPoints_escape opening fuel hletter hlookup
  | verbatim hquote hbackslash hblank =>
      exact readPoints_verbatim opening fuel hquote hbackslash hblank
  | unit hsmall =>
      have hhigh : isHighSurrogate c.toNat = false := by
        simp [isHighSurrogate]
        omega
      have hread := readUnicode_unit hsmall hhigh hrest
      rw [pointOfUnit_toNat] at hread
      rw [renderUnit_append]
      exact readPoints_unicode opening fuel hread
  | pair hlarge =>
      have hhigh : isHighSurrogate (0xD800 + (c.toNat - 0x10000) / 0x400) = true := by
        simp [isHighSurrogate]
        omega
      have hlow : isLowSurrogate (0xDC00 + (c.toNat - 0x10000) % 0x400) = true := by
        simp [isLowSurrogate]
        omega
      have hread := readUnicode_pair hhigh hlow hrest
      rw [charOfPair_halves hlarge] at hread
      rw [List.append_assoc, renderUnit_append]
      exact readPoints_unicode opening fuel hread

end

theorem renderChar_ne_nil (c : Char) : renderChar c ≠ [] := by
  have hwritten := written_renderChar c
  generalize renderChar c = text at hwritten
  cases hwritten with
  | escape => exact List.cons_ne_nil _ _
  | verbatim => exact List.cons_ne_nil _ _
  | unit =>
      rw [renderUnit]
      exact List.cons_ne_nil _ _
  | pair =>
      rw [renderUnit_append]
      exact List.cons_ne_nil _ _

theorem readPoints_flatMap (opening cs rest : List Char) {fuel : Nat}
    (h : (cs.flatMap renderChar).length < fuel) :
    readPoints opening fuel (cs.flatMap renderChar ++ '"' :: rest) = .ok (cs.map .char, rest) := by
  obtain ⟨fuel, rfl⟩ := Nat.exists_eq_add_one_of_ne_zero (Nat.ne_zero_of_lt h)
  induction cs generalizing fuel with
  | nil => rfl
  | cons c cs ih =>
      have hc := List.length_pos_of_ne_nil (renderChar_ne_nil c)
      rw [List.flatMap_cons, List.length_append] at h
      obtain ⟨fuel, rfl⟩ := Nat.exists_eq_add_one_of_ne_zero (n := fuel) (by omega)
      rw [List.flatMap_cons, List.append_assoc,
        readPoints_renderChar _ _ _ (List.append_ne_nil_of_right_ne_nil _ (List.cons_ne_nil _ _)),
        ih fuel (by omega)]
      rfl

theorem readString_flatMap (text : String) (rest : List Char) :
    readString (text.toList.flatMap renderChar ++ '"' :: rest) = .ok (.text text, rest) := by
  have hfuel : (text.toList.flatMap renderChar).length <
      (text.toList.flatMap renderChar ++ '"' :: rest).length + 1 := by
    rw [List.length_append]
    omega
  rw [readString, readPoints_flatMap _ _ _ hfuel]
  change Except.ok (RawString.ofPoints (text.toList.map .char), rest) = _
  rw [RawString.ofPoints_chars, String.ofList_toList]

/-! ## Whole numbers -/

/-- A whole number that can be read. -/
def Readable (n : Int) : Prop :=
  (Nat.toDigits 10 n.natAbs).length ≤ maxDigits

instance (n : Int) : Decidable (Readable n) :=
  inferInstanceAs (Decidable (_ ≤ _))

/-- What may stand behind a number, so that it ends there. -/
def Ends (rest : List Char) : Prop :=
  ∀ c ∈ rest.head?, c.isDigit = false ∧ c ∉ ['.', 'e', 'E']

theorem natOfDigits_toDigits (n : Nat) : natOfDigits (Nat.toDigits 10 n) = n := by
  have h := Nat.ofDigitChars_ten_toDigits (n := n)
  rw [Nat.ofDigitChars_eq_foldl] at h
  simp only [Nat.mul_comm 10] at h
  exact h

theorem spanDigits_append {digits rest : List Char} (hdigits : ∀ c ∈ digits, c.isDigit = true)
    (hrest : Ends rest) : spanDigits (digits ++ rest) = (digits, rest) := by
  have hend : rest.takeWhile Char.isDigit = [] ∧ rest.dropWhile Char.isDigit = rest := by
    cases rest with
    | nil => exact ⟨rfl, rfl⟩
    | cons c rest =>
        have hc := (hrest c rfl).1
        exact ⟨by simp [hc], by simp [hc]⟩
  rw [spanDigits, List.span_eq_takeWhile_dropWhile, List.takeWhile_append_of_pos hdigits,
    List.dropWhile_append_of_pos hdigits, hend.1, hend.2, List.append_nil]

theorem spanWhole_toDigits (n : Nat) {rest : List Char} (hrest : Ends rest) :
    spanWhole (Nat.toDigits 10 n ++ rest) = (Nat.toDigits 10 n, rest) := by
  by_cases hzero : n = 0
  · subst hzero
    rfl
  · have hhead := Decimal.head?_toDigits_ne hzero
    rw [spanWhole]
    · exact spanDigits_append Decimal.isDigit_of_mem_toDigits hrest
    · intro tail htail
      obtain ⟨c, digits, hdigits, _⟩ := Decimal.exists_toDigits n
      rw [hdigits] at hhead htail
      exact hhead (congrArg some (List.cons.inj htail).1)

theorem spanFraction_of_ends {rest : List Char} (h : Ends rest) : spanFraction rest = ([], rest) := by
  unfold spanFraction
  split
  · exact absurd (h '.' rfl).2 (by decide)
  · rfl

theorem spanExponent_of_ends {rest : List Char} (h : Ends rest) : spanExponent rest = ([], rest) := by
  unfold spanExponent
  split
  · next mark tail =>
    have hmark := (h mark rfl).2
    rw [if_neg (by rintro (rfl | rfl) <;> simp at hmark)]
  · rfl

section

variable {n : Nat} (hlength : (Nat.toDigits 10 n).length ≤ maxDigits) {rest : List Char}
  (h : Ends rest)

include hlength h

theorem readNumber_minus :
    readNumber ('-' :: (Nat.toDigits 10 n ++ rest)) = .ok (.int (-n), rest) := by
  have hwhole := spanWhole_toDigits n h
  have hvalue := natOfDigits_toDigits n
  obtain ⟨c, digits, hdigits, _⟩ := Decimal.exists_toDigits n
  rw [hdigits] at hlength hwhole hvalue ⊢
  simp only [readNumber, hwhole, spanFraction_of_ends h, spanExponent_of_ends h, hvalue,
    if_neg (Nat.not_lt.mpr hlength)]
  rfl

theorem readNumber_toDigits : readNumber (Nat.toDigits 10 n ++ rest) = .ok (.int n, rest) := by
  have hwhole := spanWhole_toDigits n h
  have hvalue := natOfDigits_toDigits n
  have hsign := Decimal.notMem_toDigits (n := n) (c := '-') rfl
  obtain ⟨c, digits, hdigits, _⟩ := Decimal.exists_toDigits n
  rw [hdigits] at hlength hwhole hvalue hsign ⊢
  unfold readNumber
  split
  next negative unsigned hunsigned =>
    split at hunsigned
    · next hminus =>
      obtain ⟨rfl, _⟩ := List.cons.inj hminus
      exact absurd (List.mem_cons_self ..) hsign
    · cases hunsigned
      simp only [hwhole, spanFraction_of_ends h, spanExponent_of_ends h, hvalue,
        if_neg (Nat.not_lt.mpr hlength)]
      rfl

end

theorem readNumber_repr {n : Int} (hn : Readable n) {rest : List Char} (h : Ends rest) :
    readNumber (n.repr.toList ++ rest) = .ok (.int n, rest) := by
  unfold Readable at hn
  rw [Decimal.toList_repr]
  split
  · next hpos =>
    have habs : n.natAbs = n.toNat := by omega
    rw [readNumber_toDigits (habs ▸ hn) h, Int.toNat_of_nonneg hpos]
  · next hneg =>
    have habs : n.natAbs = (-n).toNat := by omega
    rw [List.cons_append, readNumber_minus (habs ▸ hn) h, Int.toNat_of_nonneg (by omega),
      Int.neg_neg]

theorem ne_of_isDigit {c d : Char} (hc : c.isDigit = true) (hd : d.isDigit = false) : d ≠ c := by
  rintro rfl
  rw [hc] at hd
  cases hd

theorem not_prefix_repr_of_mem_words (n : Int) (rest : List Char) :
    ∀ entry ∈ words, ¬ entry.1 <+: n.repr.toList ++ rest := by
  rw [Decimal.toList_repr]
  split
  · obtain ⟨c, tail, hdigits, hc⟩ := Decimal.exists_toDigits n.toNat
    simp [hdigits, words, ne_of_isDigit hc]
  · obtain ⟨c, tail, hdigits, hc⟩ := Decimal.exists_toDigits (-n).toNat
    simp [hdigits, words, ne_of_isDigit hc]

theorem readScalar_repr {n : Int} (hn : Readable n) {rest : List Char} (h : Ends rest) :
    readScalar (n.repr.toList ++ rest) = .ok (.int n, rest) := by
  unfold readScalar
  split
  · next word value hfind =>
    have hword := List.find?_some hfind
    have hno := not_prefix_repr_of_mem_words n rest _ (List.mem_of_find?_eq_some hfind)
    exact absurd (List.isPrefixOf_iff_prefix.mp hword) hno
  · exact readNumber_repr hn h

end OriginFacts.Json
