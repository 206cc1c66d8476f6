import OriginFacts.Text.Quoted

/-!
Codes that tell where they end, and quoted text as one of them. What follows such a code word may be
anything: the word and what follows can always be told apart. A quoted text is read back from the
front of any text, and it stays on its line.
-/

namespace OriginFacts

/-! ## Codes that tell where they end -/

/-- Code words of good values end in one way only, whatever is written behind them. -/
def Delimited {α : Type} (good : α → Prop) (code : α → List Char) : Prop :=
  ∀ ⦃a b r s⦄, good a → good b → code a ++ r = code b ++ s → a = b ∧ r = s

/-- A text ends at the first mark, if it has none itself. -/
theorem ended_inj {mark : Char} {a b r s : List Char} (ha : mark ∉ a) (hb : mark ∉ b)
    (h : a ++ mark :: r = b ++ mark :: s) : a = b ∧ r = s := by
  have hparts := congrArg (List.splitOn mark) h
  rw [List.splitOn_append_cons_self_of_not_mem ha, List.splitOn_append_cons_self_of_not_mem hb]
    at hparts
  obtain ⟨rfl, _⟩ := List.cons.inj hparts
  exact ⟨rfl, (List.cons.inj (List.append_cancel_left h)).2⟩

theorem intercalate_map_cons {α : Type} (code : α → List Char) (sep : List Char) (a : α)
    (as : List α) :
    sep.intercalate ((a :: as).map code) = code a ++ as.flatMap fun b => sep ++ code b := by
  induction as generalizing a with
  | nil => simp
  | cons b as ih =>
      have hrest := ih b
      simp only [List.map_cons] at hrest ⊢
      rw [List.intercalate_cons_cons, hrest, List.flatMap_cons, List.append_assoc, List.append_assoc]

namespace Delimited

variable {α : Type} {good : α → Prop} {code : α → List Char} {as bs : List α}

/-- Code words in a row are told apart one by one, as far as what follows starts no code word. -/
theorem flatMap_inj (h : Delimited good code) {r s : List Char} (has : ∀ a ∈ as, good a)
    (hbs : ∀ b ∈ bs, good b) (hr : ∀ a rest, good a → code a ++ rest ≠ r)
    (hs : ∀ a rest, good a → code a ++ rest ≠ s)
    (heq : as.flatMap code ++ r = bs.flatMap code ++ s) : as = bs ∧ r = s := by
  induction as generalizing bs with
  | nil =>
      cases bs with
      | nil => exact ⟨rfl, heq⟩
      | cons b bs =>
          -- One side has come to what follows, the other still has a code word.
          rw [List.flatMap_cons, List.append_assoc] at heq
          exact absurd heq.symm (hr b _ (hbs b (List.mem_cons_self ..)))
  | cons a as ih =>
      obtain ⟨ha, has⟩ := List.forall_mem_cons.mp has
      rw [List.flatMap_cons, List.append_assoc] at heq
      cases bs with
      | nil => exact absurd heq (hs a _ ha)
      | cons b bs =>
          rw [List.flatMap_cons, List.append_assoc] at heq
          obtain ⟨hhead, hrest⟩ := h ha (hbs b (List.mem_cons_self ..)) heq
          obtain ⟨htail, hrs⟩ := ih has (List.forall_mem_cons.mp hbs).2 hrest
          exact ⟨by rw [hhead, htail], hrs⟩

/-- So are code words with a separator between them, up to the end of the text. -/
theorem intercalate_inj (h : Delimited good code) (hcode : ∀ a, code a ≠ []) (sep : List Char)
    (has : ∀ a ∈ as, good a) (hbs : ∀ b ∈ bs, good b)
    (heq : sep.intercalate (as.map code) = sep.intercalate (bs.map code)) : as = bs := by
  cases as with
  | nil =>
      cases bs with
      | nil => rfl
      | cons b bs =>
          rw [intercalate_map_cons] at heq
          exact absurd (List.append_eq_nil_iff.mp heq.symm).1 (hcode b)
  | cons a as =>
      cases bs with
      | nil =>
          rw [intercalate_map_cons] at heq
          exact absurd (List.append_eq_nil_iff.mp heq).1 (hcode a)
      | cons b bs =>
          rw [intercalate_map_cons, intercalate_map_cons] at heq
          obtain ⟨ha, has⟩ := List.forall_mem_cons.mp has
          obtain ⟨hb, hbs⟩ := List.forall_mem_cons.mp hbs
          obtain ⟨hhead, hrest⟩ := h ha hb heq
          -- The separator in front of each further word becomes part of the word.
          have hsep : Delimited good fun b => sep ++ code b := by
            intro a b r s ha hb hab
            rw [List.append_assoc, List.append_assoc] at hab
            exact h ha hb (List.append_cancel_left hab)
          have hend : ∀ a rest, good a → sep ++ code a ++ rest ≠ [] := by
            intro a rest _ hnil
            exact hcode a (List.append_eq_nil_iff.mp (List.append_eq_nil_iff.mp hnil).1).2
          have htail := hsep.flatMap_inj has hbs hend hend (congrArg (· ++ []) hrest)
          rw [hhead, htail.1]

end Delimited

/-! ## Hexadecimal digits read back -/

namespace Hex

def number (digits : List Char) : Nat :=
  digits.foldl (fun n c => 16 * n + (value? c).getD 0) 0

theorem value?_digitChar {n : Nat} (h : n < 16) : value? (Nat.digitChar n) = some n := by
  have hall : ∀ n < 16, value? (Nat.digitChar n) = some n := by decide
  exact hall n h

theorem number_digits (n : Nat) : number (digits n) = n := by
  induction n using Nat.strongRecOn with
  | ind n ih =>
      rw [digits, Nat.toDigits_eq_if (by decide)]
      split
      · next hlt => simp [number, value?_digitChar hlt]
      · next hge =>
        have hrest := ih (n / 16) (by omega)
        have hlast := value?_digitChar (Nat.mod_lt n (by decide : 0 < 16))
        rw [digits, number] at hrest
        rw [number, List.foldl_append, hrest]
        simp only [List.foldl_cons, List.foldl_nil, hlast, Option.getD_some]
        omega

theorem exists_value_of_mem_digits {n : Nat} {c : Char} (h : c ∈ digits n) :
    ∃ k < 16, c = Nat.digitChar k := by
  induction n using Nat.strongRecOn with
  | ind n ih =>
      rw [digits, Nat.toDigits_eq_if (by decide)] at h
      split at h
      · next hlt => exact ⟨n, hlt, List.mem_singleton.mp h⟩
      · next hge =>
        rcases List.mem_append.mp h with hrest | hlast
        · exact ih (n / 16) (by omega) hrest
        · exact ⟨n % 16, Nat.mod_lt n (by decide), List.mem_singleton.mp hlast⟩

theorem notMem_digits {c : Char} (hc : ∀ k < 16, c ≠ Nat.digitChar k) (n : Nat) : c ∉ digits n := by
  intro hmem
  obtain ⟨k, hk, hdigit⟩ := exists_value_of_mem_digits hmem
  exact hc k hk hdigit

end Hex

/-! ## Quoted text -/

namespace Quoted

/-- The character behind a backslash, and what follows it. -/
def decodeEscape : List Char → Option (Char × List Char)
  | [] => none
  | 'u' :: '\x7b' :: rest =>
    let digits := rest.takeWhile (· != '\x7d')
    some (Char.ofNat (Hex.number digits), (rest.dropWhile (· != '\x7d')).tail)
  | letter :: rest => (letters.find? (·.2 == letter)).map fun entry => (entry.1, rest)

/-- The first character of a quoted text, and what follows it. The closing quote is none. -/
def decodeChar : List Char → Option (Char × List Char)
  | [] => none
  | c :: rest =>
    if c = '"' then none else if c = '\\' then decodeEscape rest else some (c, rest)

theorem decodeEscape_codePoint (c : Char) (rest : List Char) :
    decodeEscape ('u' :: '\x7b' :: Hex.digits c.toNat ++ '\x7d' :: rest) = some (c, rest) := by
  have hdigits : ∀ d ∈ Hex.digits c.toNat, (d != '\x7d') = true := by
    intro d hd
    rw [bne_iff_ne]
    rintro rfl
    exact Hex.notMem_digits (by decide) _ hd
  simp [decodeEscape, List.takeWhile_append_of_pos hdigits, List.dropWhile_append_of_pos hdigits,
    Hex.number_digits]

theorem mem_letters_of_lookup {c letter : Char} (h : letters.lookup c = some letter) :
    (c, letter) ∈ letters := by
  obtain ⟨before, after, hsplit, _⟩ := List.lookup_eq_some_iff.mp h
  rw [hsplit]
  simp

theorem decodeChar_letter {c letter : Char} (h : letters.lookup c = some letter) (rest : List Char) :
    decodeChar ('\\' :: letter :: rest) = some (c, rest) := by
  have hmem := mem_letters_of_lookup h
  simp only [letters, List.mem_cons, Prod.mk.injEq, List.not_mem_nil, or_false] at hmem
  rcases hmem with ⟨rfl, rfl⟩ | ⟨rfl, rfl⟩ | ⟨rfl, rfl⟩ | ⟨rfl, rfl⟩ | ⟨rfl, rfl⟩ | ⟨rfl, rfl⟩ <;> rfl

/-- However a character is written, it is read back, and nothing behind it is touched. -/
theorem decodeChar_encodeChar (printable : Char → Bool) (c : Char) (rest : List Char) :
    decodeChar (encodeChar printable c ++ rest) = some (c, rest) := by
  unfold encodeChar
  split
  · next letter hletter => exact decodeChar_letter hletter rest
  · next hplain =>
    have hquote : c ≠ '"' := by rintro rfl; cases hplain
    have hslash : c ≠ '\\' := by rintro rfl; cases hplain
    split
    · simp [decodeChar, hquote, hslash]
    · have hcode := decodeEscape_codePoint c rest
      simpa [decodeChar] using hcode

theorem length_of_decodeEscape {text rest : List Char} {c : Char}
    (h : decodeEscape text = some (c, rest)) : rest.length ≤ text.length := by
  unfold decodeEscape at h
  split at h
  · cases h
  · next digits =>
    cases h
    have hdrop := (List.dropWhile_sublist (· != '\x7d') (l := digits)).length_le
    simp only [List.length_tail, List.length_cons]
    omega
  · obtain ⟨_, _, hrest⟩ := Option.map_eq_some_iff.mp h
    cases hrest
    exact Nat.le_succ _

theorem length_of_decodeChar {text rest : List Char} {c : Char}
    (h : decodeChar text = some (c, rest)) : rest.length < text.length := by
  unfold decodeChar at h
  split at h
  · cases h
  · split at h
    · cases h
    · split at h
      · exact Nat.lt_succ_of_le (length_of_decodeEscape h)
      · cases h
        exact Nat.lt_succ_self _

/-- The characters up to the closing quote, and what follows it. -/
def decodeBody (text : List Char) : Option (List Char × List Char) :=
  if text.head? = some '"' then some ([], text.tail)
  else
    match _ : decodeChar text with
    | none => none
    | some (c, rest) => (decodeBody rest).map (Prod.map (c :: ·) id)
termination_by text.length
decreasing_by exact length_of_decodeChar ‹_›

/-- The text that is quoted at the front, and what follows it. -/
def decode : List Char → Option (List Char × List Char)
  | '"' :: rest => decodeBody rest
  | _ => none

theorem decodeBody_closing (rest : List Char) : decodeBody ('"' :: rest) = some ([], rest) := by
  rw [decodeBody, if_pos (List.head?_cons ..)]
  rfl

theorem decodeBody_of_decodeChar {text rest : List Char} {c : Char}
    (h : decodeChar text = some (c, rest)) :
    decodeBody text = (decodeBody rest).map (Prod.map (c :: ·) id) := by
  have hquote : text.head? ≠ some '"' := by
    intro hhead
    obtain ⟨after, rfl⟩ := List.head?_eq_some_iff.mp hhead
    cases h
  rw [decodeBody, if_neg hquote]
  split
  · next hnone => cases hnone.symm.trans h
  · next hsome =>
    cases hsome.symm.trans h
    rfl

theorem decodeBody_flatMap (printable : Char → Bool) (text rest : List Char) :
    decodeBody (text.flatMap (encodeChar printable) ++ '"' :: rest) = some (text, rest) := by
  induction text with
  | nil => exact decodeBody_closing rest
  | cons c text ih =>
      rw [List.flatMap_cons, List.append_assoc,
        decodeBody_of_decodeChar (decodeChar_encodeChar printable c _), ih]
      rfl

theorem decode_encode (printable : Char → Bool) (text rest : List Char) :
    decode (encode printable text ++ rest) = some (text, rest) := by
  have hbody := decodeBody_flatMap printable text rest
  simpa [encode, decode] using hbody

/-- A quoted text ends at its closing quote, whatever characters count as printable. -/
theorem delimited_encode (printable : Char → Bool) :
    Delimited (fun _ => True) (encode printable) := by
  intro t u r s _ _ heq
  have hread := congrArg decode heq
  rw [decode_encode, decode_encode] at hread
  exact Prod.mk.inj (Option.some.inj hread)

/-- The characters that end a line, or move within one, and the null character. -/
def controls : List Char :=
  ['\n', '\r', '\t', '\x00']

/-- They have letters of their own, and nothing that stands behind a backslash is one of them. -/
theorem control_unlike {c : Char} (hc : c ∈ controls) :
    (letters.lookup c).isSome ∧ c ∉ '\\' :: 'u' :: '\x7b' :: '\x7d' :: letters.map Prod.snd ∧
      ∀ k < 16, c ≠ Nat.digitChar k := by
  simp only [controls, List.mem_cons, List.not_mem_nil, or_false] at hc
  rcases hc with rfl | rfl | rfl | rfl <;> decide

theorem control_notMem_encodeChar (printable : Char → Bool) (d : Char) {c : Char}
    (hc : c ∈ controls) : c ∉ encodeChar printable d := by
  obtain ⟨hlookup, hmarks, hdigits⟩ := control_unlike hc
  unfold encodeChar
  split
  · next letter hletter =>
    have hmem : letter ∈ letters.map Prod.snd :=
      List.mem_map_of_mem (f := Prod.snd) (mem_letters_of_lookup hletter)
    simp only [List.mem_cons, not_or] at hmarks
    simp only [List.mem_cons, List.not_mem_nil, or_false, not_or]
    refine ⟨hmarks.1, ?_⟩
    rintro rfl
    exact hmarks.2.2.2.2 hmem
  · next hplain =>
    split
    · intro hd
      rw [List.mem_singleton.mp hd, hplain] at hlookup
      cases hlookup
    · have hcode := Hex.notMem_digits hdigits d.toNat
      simp only [List.mem_cons, not_or] at hmarks
      simp [hmarks, hcode]

theorem control_notMem_encode (printable : Char → Bool) (text : List Char) {c : Char}
    (hc : c ∈ controls) : c ∉ encode printable text := by
  have hquote : c ≠ '"' := by
    rintro rfl
    exact absurd hc (by decide)
  have hbody : c ∉ text.flatMap (encodeChar printable) := by
    intro hmem
    obtain ⟨d, _, hd⟩ := List.mem_flatMap.mp hmem
    exact control_notMem_encodeChar printable d hc hd
  simp [encode, hquote, hbody]

/-- Quoted texts with something behind them are equal only if the texts are and what follows is. One
reader finds the text and what follows, for every choice of the printable characters. No line feed,
carriage return, tab or null character is left in quotes. -/
theorem encode_self_delimiting (printable : Char → Bool) :
    (∀ t u r s, encode printable t ++ r = encode printable u ++ s ↔ t = u ∧ r = s) ∧
    (∀ t r, decode (encode printable t ++ r) = some (t, r)) ∧
    ∀ t, ∀ c ∈ controls, c ∉ encode printable t := by
  refine ⟨fun t u r s => ?_, decode_encode printable,
    fun t c hc => control_notMem_encode printable t hc⟩
  constructor
  · exact delimited_encode printable trivial trivial
  · rintro ⟨rfl, rfl⟩
    rfl

end Quoted

end OriginFacts
