import OriginFacts.Surface.Token

/-!
Splitting a text into lexemes. A lexeme is a mark, an origin or a name; blanks may stand around
lexemes, and each lexeme is the longest one that the text has at its place. The lexer finds the only
way to split a text, and marks what cannot be split by a stray token.
-/

namespace OriginFacts.Surface

/-! ## Lexemes -/

/-- The characters `[A-Za-z_]`. -/
def NameStart (c : Char) : Prop :=
  'A' ≤ c ∧ c ≤ 'Z' ∨ 'a' ≤ c ∧ c ≤ 'z' ∨ c = '_'

/-- The characters `[A-Za-z0-9_]`. -/
def NameChar (c : Char) : Prop :=
  'A' ≤ c ∧ c ≤ 'Z' ∨ 'a' ≤ c ∧ c ≤ 'z' ∨ '0' ≤ c ∧ c ≤ '9' ∨ c = '_'

/-- The texts `[A-Za-z_][A-Za-z0-9_]*`. -/
def IsName (text : List Char) : Prop :=
  ∃ c cs, text = c :: cs ∧ NameStart c ∧ ∀ d ∈ cs, NameChar d

/-- The texts `'[A-Za-z0-9_]+`. -/
def IsOrigin (text : List Char) : Prop :=
  ∃ cs, text = '\'' :: cs ∧ cs ≠ [] ∧ ∀ d ∈ cs, NameChar d

namespace Token

/-- The characters of a token. -/
def chars : Token → List Char
  | amp => ['&']
  | opening => ['(']
  | closing => [')']
  | less => ['<']
  | greater => ['>']
  | comma => [',']
  | star => ['*']
  | dot => ['.']
  | origin name => name.toList
  | word name => name.toList
  | stray c => [c]

/-- A token is a lexeme: names and origins have their form, and a stray character is none. -/
def IsLexeme : Token → Prop
  | origin name => IsOrigin name.toList
  | word name => IsName name.toList
  | stray _ => False
  | _ => True

/-- No lexeme at the start of the text is longer. -/
def Longest (token : Token) (text : List Char) : Prop :=
  ∀ other : Token, other.IsLexeme → other.chars <+: text → other.chars.length ≤ token.chars.length

end Token

/-- The white space: space, tab, form feed, carriage return and line feed. -/
def blanks : List Char :=
  [' ', '\t', '\x0c', '\r', '\n']

/-- A text splits into lexemes, each the longest at its place, with blanks around them. -/
inductive Splits : List Char → List Token → Prop where
  | nil : Splits [] []
  | blank {c : Char} {cs : List Char} {tokens : List Token} :
      c ∈ blanks → Splits cs tokens → Splits (c :: cs) tokens
  | lexeme {token : Token} {rest : List Char} {tokens : List Token} :
      token.IsLexeme → token.Longest (token.chars ++ rest) → Splits rest tokens →
        Splits (token.chars ++ rest) (token :: tokens)

/-! ## Classes of characters -/

theorem isBlank_iff {c : Char} : isBlank c = true ↔ c ∈ blanks := by
  simp [isBlank, blanks, or_assoc]

theorem isUpper_iff {c : Char} : c.isUpper = true ↔ 'A' ≤ c ∧ c ≤ 'Z' := by
  delta Char.isUpper
  rw [decide_eq_true_iff]
  rfl

theorem isLower_iff {c : Char} : c.isLower = true ↔ 'a' ≤ c ∧ c ≤ 'z' := by
  delta Char.isLower
  rw [Bool.and_eq_true, decide_eq_true_iff, decide_eq_true_iff]
  rfl

theorem isDigit_iff {c : Char} : c.isDigit = true ↔ '0' ≤ c ∧ c ≤ '9' := by
  delta Char.isDigit
  rw [Bool.and_eq_true, decide_eq_true_iff, decide_eq_true_iff]
  rfl

theorem isAlpha_iff {c : Char} :
    c.isAlpha = true ↔ 'A' ≤ c ∧ c ≤ 'Z' ∨ 'a' ≤ c ∧ c ≤ 'z' := by
  rw [← isUpper_iff, ← isLower_iff]
  exact Bool.or_eq_true_iff

theorem isNameStart_iff {c : Char} : isNameStart c = true ↔ NameStart c := by
  simp only [isNameStart, NameStart, Bool.or_eq_true, isAlpha_iff, beq_iff_eq, or_assoc]

theorem isNameChar_iff {c : Char} : isNameChar c = true ↔ NameChar c := by
  simp only [isNameChar, NameChar, Char.isAlphanum, Bool.or_eq_true, isAlpha_iff, isDigit_iff,
    beq_iff_eq, or_assoc]

theorem isName_cons_iff {c : Char} {cs : List Char} :
    (isNameStart c && cs.all isNameChar) = true ↔ IsName (c :: cs) := by
  simp only [Bool.and_eq_true, List.all_eq_true, isNameStart_iff, isNameChar_iff]
  constructor
  · intro h
    exact ⟨c, cs, rfl, h⟩
  · rintro ⟨_, _, h, hc, hcs⟩
    cases h
    exact ⟨hc, hcs⟩

theorem isOrigin_cons_iff {c : Char} {cs : List Char} :
    (c == '\'' && !cs.isEmpty && cs.all isNameChar) = true ↔ IsOrigin (c :: cs) := by
  simp only [Bool.and_eq_true, List.all_eq_true, isNameChar_iff, beq_iff_eq, Bool.not_eq_true',
    List.isEmpty_eq_false_iff]
  constructor
  · rintro ⟨⟨rfl, hne⟩, hcs⟩
    exact ⟨cs, rfl, hne, hcs⟩
  · rintro ⟨_, h, hne, hcs⟩
    cases h
    exact ⟨⟨rfl, hne⟩, hcs⟩

instance : DecidablePred IsName
  | [] => isFalse fun ⟨_, _, h, _⟩ => nomatch h
  | _ :: _ => decidable_of_iff _ isName_cons_iff

instance : DecidablePred IsOrigin
  | [] => isFalse fun ⟨_, h, _⟩ => nomatch h
  | _ :: _ => decidable_of_iff _ isOrigin_cons_iff

/-! ## The lexer on a text that splits -/

/-- The tokens of a text. -/
def tokensOf (text : List Char) : List Token :=
  (lex text).map (·.token)

theorem tokensOf_nil : tokensOf [] = [] := by
  rw [tokensOf, lex]
  rfl

theorem tokensOf_blank {c : Char} {cs : List Char} (hc : isBlank c = true) :
    tokensOf (c :: cs) = tokensOf cs := by
  rw [tokensOf, lex, if_pos hc]
  rfl

theorem not_blank_of_nameStart {c : Char} (hc : isNameStart c = true) : isBlank c = false := by
  rw [Bool.eq_false_iff]
  intro hblank
  simp only [isBlank, Bool.or_eq_true, beq_iff_eq] at hblank
  rcases hblank with (((rfl | rfl) | rfl) | rfl) | rfl <;> exact absurd hc (by decide)

theorem tokensOf_name {c : Char} {cs : List Char} (hc : isNameStart c = true) :
    tokensOf (c :: cs) = .word (String.ofList (c :: cs.takeWhile isNameChar)) ::
      tokensOf (cs.dropWhile isNameChar) := by
  rw [tokensOf, lex, if_neg (by simp [not_blank_of_nameStart hc]), if_pos hc]
  rfl

theorem tokensOf_origin {cs : List Char} (hcs : cs.takeWhile isNameChar ≠ []) :
    tokensOf ('\'' :: cs) = .origin (String.ofList ('\'' :: cs.takeWhile isNameChar)) ::
      tokensOf (cs.dropWhile isNameChar) := by
  rw [tokensOf, lex, if_neg (by decide), if_neg (by decide), if_pos ⟨rfl, hcs⟩]
  rfl

theorem tokensOf_mark {c : Char} {cs : List Char} (hblank : isBlank c = false)
    (hname : isNameStart c = false) (horigin : ¬ (c = '\'' ∧ cs.takeWhile isNameChar ≠ [])) :
    tokensOf (c :: cs) = .ofChar c :: tokensOf cs := by
  rw [tokensOf, lex, if_neg (by simp [hblank]), if_neg (by simp [hname]), if_neg horigin]
  rfl

theorem IsName.concat {text : List Char} (h : IsName text) {d : Char} (hd : NameChar d) :
    IsName (text ++ [d]) := by
  obtain ⟨c, body, rfl, hc, hbody⟩ := h
  refine ⟨c, body ++ [d], rfl, hc, ?_⟩
  simpa [or_imp, forall_and, hd] using hbody

theorem IsOrigin.concat {text : List Char} (h : IsOrigin text) {d : Char} (hd : NameChar d) :
    IsOrigin (text ++ [d]) := by
  obtain ⟨body, rfl, _, hbody⟩ := h
  refine ⟨body ++ [d], rfl, by simp, ?_⟩
  simpa [or_imp, forall_and, hd] using hbody

/-- Behind the longest name or origin stands no further character of a name. -/
theorem span_of_longest {token : Token} {body rest : List Char} (hbody : ∀ d ∈ body, NameChar d)
    (hlonger : ∀ d, NameChar d → ∃ other : Token, other.IsLexeme ∧ other.chars = token.chars ++ [d])
    (hlongest : token.Longest (token.chars ++ rest)) :
    (body ++ rest).takeWhile isNameChar = body ∧ (body ++ rest).dropWhile isNameChar = rest := by
  have hinside : ∀ d ∈ body, isNameChar d = true := fun d hd => isNameChar_iff.mpr (hbody d hd)
  rw [List.takeWhile_append_of_pos hinside, List.dropWhile_append_of_pos hinside]
  cases rest with
  | nil => simp
  | cons d rest =>
      have hstop : isNameChar d = false := by
        rw [Bool.eq_false_iff]
        intro hd
        obtain ⟨other, hother, hspelled⟩ := hlonger d (isNameChar_iff.mp hd)
        have hlength := hlongest other hother ⟨rest, by simp [hspelled]⟩
        simp only [hspelled, List.length_append, List.length_singleton] at hlength
        omega
      simp [hstop]

theorem tokensOf_lexeme {token : Token} {rest : List Char} (hlexeme : token.IsLexeme)
    (hlongest : token.Longest (token.chars ++ rest)) :
    tokensOf (token.chars ++ rest) = token :: tokensOf rest := by
  cases token with
  | word name =>
      have hform : IsName name.toList := hlexeme
      obtain ⟨c, body, hname, hc, hbody⟩ := hform
      have hspelled : (Token.word name).chars = c :: body := hname
      obtain ⟨htake, hdrop⟩ := span_of_longest hbody
        (fun d hd => ⟨.word (String.ofList (name.toList ++ [d])),
          by simpa [Token.IsLexeme] using hlexeme.concat hd, by simp [Token.chars]⟩) hlongest
      rw [hspelled, List.cons_append, tokensOf_name (isNameStart_iff.mpr hc), htake, hdrop, ← hname,
        String.ofList_toList]
  | origin name =>
      have hform : IsOrigin name.toList := hlexeme
      obtain ⟨body, hname, hne, hbody⟩ := hform
      have hspelled : (Token.origin name).chars = '\'' :: body := hname
      obtain ⟨htake, hdrop⟩ := span_of_longest hbody
        (fun d hd => ⟨.origin (String.ofList (name.toList ++ [d])),
          by simpa [Token.IsLexeme] using hlexeme.concat hd, by simp [Token.chars]⟩) hlongest
      rw [hspelled, List.cons_append, tokensOf_origin (by rw [htake]; exact hne), htake, hdrop,
        ← hname, String.ofList_toList]
  | stray c => cases hlexeme
  | _ => exact tokensOf_mark rfl rfl (by simp)

/-- A text has at most one way to be split, and the lexer finds it. -/
theorem Splits.eq_tokensOf {text : List Char} {tokens : List Token} (h : Splits text tokens) :
    tokens = tokensOf text := by
  induction h with
  | nil => exact tokensOf_nil.symm
  | blank hc _ ih => rw [tokensOf_blank (isBlank_iff.mpr hc), ih]
  | lexeme hlexeme hlongest _ ih => rw [tokensOf_lexeme hlexeme hlongest, ih]

/-! ## Texts that split -/

/-- A lexeme is one character with characters of a name behind it. -/
theorem Token.IsLexeme.exists_chars {token : Token} (h : token.IsLexeme) :
    ∃ c body, token.chars = c :: body ∧ ∀ d ∈ body, isNameChar d = true := by
  cases token with
  | word name =>
      obtain ⟨c, body, hname, _, hbody⟩ := h
      exact ⟨c, body, hname, fun d hd => isNameChar_iff.mpr (hbody d hd)⟩
  | origin name =>
      obtain ⟨body, hname, _, hbody⟩ := h
      exact ⟨'\'', body, hname, fun d hd => isNameChar_iff.mpr (hbody d hd)⟩
  | stray c => cases h
  | _ => exact ⟨_, [], rfl, by simp⟩

theorem length_le_length_takeWhile {p : Char → Bool} {xs ys : List Char} (hstart : xs <+: ys)
    (hxs : ∀ c ∈ xs, p c = true) : xs.length ≤ (ys.takeWhile p).length := by
  obtain ⟨rest, rfl⟩ := hstart
  rw [List.takeWhile_append_of_pos hxs, List.length_append]
  omega

/-- A lexeme that takes all characters of a name behind its first one is the longest. -/
theorem longest_of_takeWhile {token : Token} {c : Char} {cs : List Char}
    (hchars : token.chars = c :: cs.takeWhile isNameChar) : token.Longest (c :: cs) := by
  intro other hother hstart
  obtain ⟨d, body, hspelled, hbody⟩ := hother.exists_chars
  rw [hspelled, List.cons_prefix_cons] at hstart
  have hlength := length_le_length_takeWhile hstart.2 hbody
  simp only [hspelled, hchars, List.length_cons]
  omega

theorem chars_ofChar (c : Char) : (Token.ofChar c).chars = [c] := by
  unfold Token.ofChar
  split <;> rfl

theorem isLexeme_ofChar {c : Char} (h : ∀ d, Token.ofChar c ≠ .stray d) :
    (Token.ofChar c).IsLexeme := by
  revert h
  unfold Token.ofChar
  split
  case h_9 => exact fun h => absurd rfl (h c)
  all_goals exact fun _ => trivial

/-- Where neither a name nor an origin starts, every lexeme is a single character. -/
theorem longest_ofChar {c : Char} {cs : List Char} (hname : isNameStart c = false)
    (horigin : ¬ (c = '\'' ∧ cs.takeWhile isNameChar ≠ [])) :
    (Token.ofChar c).Longest (c :: cs) := by
  intro other hother hstart
  rw [chars_ofChar]
  cases other with
  | word name =>
      obtain ⟨d, body, hspelled, hd, _⟩ := hother
      have hsame : d = c := by
        simp only [Token.chars, hspelled, List.cons_prefix_cons] at hstart
        exact hstart.1
      rw [← isNameStart_iff, hsame, hname] at hd
      cases hd
  | origin name =>
      obtain ⟨body, hspelled, hne, hbody⟩ := hother
      simp only [Token.chars, hspelled, List.cons_prefix_cons] at hstart
      obtain ⟨hsame, hstart⟩ := hstart
      have hlength := length_le_length_takeWhile hstart fun d hd => isNameChar_iff.mpr (hbody d hd)
      refine absurd ⟨hsame.symm, ?_⟩ horigin
      intro hnone
      rw [hnone, List.length_nil, Nat.le_zero, List.length_eq_zero_iff] at hlength
      exact hne hlength
  | stray d => cases hother
  | _ => exact Nat.le_refl 1

theorem nameChar_of_mem_takeWhile {cs : List Char} : ∀ d ∈ cs.takeWhile isNameChar, NameChar d :=
  fun d hd => isNameChar_iff.mp (List.all_eq_true.mp List.all_takeWhile d hd)

/-- The lexer splits a text unless a character is left over. -/
theorem splits_tokensOf (text : List Char) (h : ∀ c, Token.stray c ∉ tokensOf text) :
    Splits text (tokensOf text) := by
  have hstep : ∀ {token : Token} {c : Char} {cs rest : List Char} {tokens : List Token},
      token.IsLexeme → token.chars ++ rest = c :: cs → token.Longest (c :: cs) →
        Splits rest tokens → Splits (c :: cs) (token :: tokens) := by
    intro token c cs rest tokens hlexeme htext hlongest hrest
    rw [← htext] at hlongest ⊢
    exact .lexeme hlexeme hlongest hrest
  induction text using lex.induct with
  | case1 =>
      rw [tokensOf_nil]
      exact .nil
  | case2 c cs hblank ih =>
      rw [tokensOf_blank hblank] at h ⊢
      exact .blank (isBlank_iff.mp hblank) (ih h)
  | case3 c cs hblank hname ih =>
      rw [tokensOf_name hname] at h ⊢
      have hrest := ih fun d hd => h d (List.mem_cons_of_mem _ hd)
      refine hstep ?_ (by simp [Token.chars]) (longest_of_takeWhile (by simp [Token.chars])) hrest
      have hstart := isNameStart_iff.mp hname
      exact ⟨c, cs.takeWhile isNameChar, by simp, hstart, nameChar_of_mem_takeWhile⟩
  | case4 c cs hblank hname horigin ih =>
      obtain ⟨rfl, hbody⟩ := horigin
      rw [tokensOf_origin hbody] at h ⊢
      have hrest := ih fun d hd => h d (List.mem_cons_of_mem _ hd)
      refine hstep ?_ (by simp [Token.chars]) (longest_of_takeWhile (by simp [Token.chars])) hrest
      exact ⟨cs.takeWhile isNameChar, by simp, hbody, nameChar_of_mem_takeWhile⟩
  | case5 c cs hblank hname horigin ih =>
      rw [Bool.not_eq_true] at hblank hname
      rw [tokensOf_mark hblank hname horigin] at h ⊢
      have hrest := ih fun d hd => h d (List.mem_cons_of_mem _ hd)
      refine hstep ?_ (by rw [chars_ofChar]; rfl) (longest_ofChar hname horigin) hrest
      exact isLexeme_ofChar fun d hd => h d (hd ▸ List.mem_cons_self ..)

end OriginFacts.Surface
