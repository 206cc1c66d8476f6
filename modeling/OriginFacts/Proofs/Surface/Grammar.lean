import OriginFacts.Proofs.Lookup
import OriginFacts.Proofs.Surface.Lexing
import OriginFacts.Surface.Parse

/-!
The grammar of the surface form as rules of derivation, and the readers against it: a reader takes
exactly the tokens that derive what it gives back, and a parser accepts exactly the texts that split
into such tokens.
-/

namespace OriginFacts.Surface

/-! ## Forms -/

mutual

/-- The tokens of a type. The word `i32` is no name of a struct. Directly behind the origin of a
reference the word `mut` is the keyword, so what a shared reference points to does not start with
it; everywhere else it is a name. -/
inductive TyForm : List Token → Ty → Prop where
  | i32 : TyForm [.word "i32"] .i32
  | unit : TyForm [.opening, .closing] .unit
  | refMut {o : String} {tokens : List Token} {t : Ty} :
      TyForm tokens t → TyForm (.amp :: .origin o :: .word "mut" :: tokens) (.ref .mutable o t)
  | ref {o : String} {tokens : List Token} {t : Ty} :
      TyForm tokens t → tokens.head? ≠ some (.word "mut") →
        TyForm (.amp :: .origin o :: tokens) (.ref .shared o t)
  | name {name : String} : name ≠ "i32" → TyForm [.word name] (.struct name [])
  | struct {name : String} {tokens : List Token} {args : List Arg} :
      name ≠ "i32" → ArgsForm tokens args →
        TyForm (.word name :: .less :: (tokens ++ [.greater])) (.struct name args)

/-- The tokens of an argument: an origin or a type. -/
inductive ArgForm : List Token → Arg → Prop where
  | origin {o : String} : ArgForm [.origin o] (.origin o)
  | ty {tokens : List Token} {t : Ty} : TyForm tokens t → ArgForm tokens (.ty t)

/-- The tokens of one or more arguments with commas between them. -/
inductive ArgsForm : List Token → List Arg → Prop where
  | one {tokens : List Token} {arg : Arg} : ArgForm tokens arg → ArgsForm tokens [arg]
  | more {first rest : List Token} {arg : Arg} {args : List Arg} :
      ArgForm first arg → ArgsForm rest args → ArgsForm (first ++ .comma :: rest) (arg :: args)

end

/-- The tokens of a place: a star if it is dereferenced, then names separated by dots. -/
def PlaceForm (tokens : List Token) (place : Place) : Prop :=
  tokens = (if place.deref then [.star] else []) ++
    .word place.root :: place.fields.flatMap fun field => [.dot, .word field]

/-- The token of an origin. -/
def OriginForm (tokens : List Token) (o : Origin) : Prop :=
  tokens = [.origin o]

/-- The token of a generic slot: an origin, or the name of a type. -/
def SlotForm (tokens : List Token) : GenericSlot → Prop
  | .origin o => tokens = [.origin o]
  | .ty name => tokens = [.word name]

/-! ## What types start with -/

theorem TyForm.exists_cons {tokens : List Token} {t : Ty} (h : TyForm tokens t) :
    ∃ token rest, tokens = token :: rest ∧ ∀ o, token ≠ .origin o := by
  cases h <;> exact ⟨_, _, rfl, by simp⟩

theorem TyForm.head?_append {tokens rest : List Token} {t : Ty} (h : TyForm tokens t) :
    (tokens ++ rest).head? = tokens.head? := by
  obtain ⟨token, tail, rfl, _⟩ := h.exists_cons
  rfl

theorem TyForm.head?_ne_origin {tokens rest : List Token} {t : Ty} (h : TyForm tokens t)
    (o : String) : (tokens ++ rest).head? ≠ some (.origin o) := by
  obtain ⟨token, tail, rfl, htoken⟩ := h.exists_cons
  simpa using htoken o

/-! ## Reading one rule -/

section

variable {fuel : Nat} {o name : String} {tokens rest : List Token}

theorem readTy_refMut :
    readTy (fuel + 1) (.amp :: .origin o :: .word "mut" :: tokens) = do
      let (t, rest) ← readTy fuel tokens
      return (.ref .mutable o t, rest) := by
  rw [readTy, if_pos rfl]

theorem readTy_ref (hmut : tokens.head? ≠ some (.word "mut")) :
    readTy (fuel + 1) (.amp :: .origin o :: tokens) = do
      let (t, rest) ← readTy fuel tokens
      return (.ref .shared o t, rest) := by
  cases tokens with
  | nil => rfl
  | cons token tokens =>
      cases token with
      | word name => rw [readTy, if_neg (by simpa using hmut)]
      | _ => rfl

theorem readTy_name (hname : name ≠ "i32") (hless : rest.head? ≠ some .less) :
    readTy (fuel + 1) (.word name :: rest) = .ok (.struct name [], rest) := by
  rw [readTy, if_neg hname]
  rintro tail rfl
  exact hless rfl

theorem readTy_struct (hname : name ≠ "i32") :
    readTy (fuel + 1) (.word name :: .less :: tokens) = do
      let (args, rest) ← readArgs fuel tokens
      return (.struct name args, rest) := by
  rw [readTy, if_neg hname]

theorem readArg_ty (horigin : ∀ o, tokens.head? ≠ some (.origin o)) :
    readArg (fuel + 1) tokens = do
      let (t, rest) ← readTy fuel tokens
      return (.ty t, rest) := by
  cases tokens with
  | nil => rfl
  | cons token tokens =>
      cases token with
      | origin o => exact absurd rfl (horigin o)
      | _ => rfl

end

/-! ## Readers take what a form derives -/

theorem TyForm.ref_of_split {o : String} {tokens used rest : List Token} {t : Ty}
    (hform : TyForm used t) (hsplit : tokens = used ++ rest)
    (hmut : tokens.head? ≠ some (.word "mut")) :
    ∃ used', .amp :: .origin o :: tokens = used' ++ rest ∧ TyForm used' (.ref .shared o t) := by
  refine ⟨.amp :: .origin o :: used, by simp [hsplit], .ref hform ?_⟩
  rwa [hsplit, hform.head?_append] at hmut

mutual

theorem readTy_sound : (fuel : Nat) → {tokens rest : List Token} → {t : Ty} →
    readTy fuel tokens = .ok (t, rest) → ∃ used, tokens = used ++ rest ∧ TyForm used t
  | 0, _, _, _, h => by cases h
  | fuel + 1, tokens, rest, t, h => by
      unfold readTy at h
      split at h
      · next name tail =>
        split at h
        · next hname =>
          cases h
          exact ⟨[.word name], rfl, hname ▸ .i32⟩
        · next hname =>
          split at h
          · next tail =>
            obtain ⟨⟨args, _⟩, hargs, hend⟩ := bind_eq_ok_iff.mp h
            cases pure_eq_ok_iff.mp hend
            obtain ⟨used, rfl, hform⟩ := readArgs_sound fuel hargs
            exact ⟨.word name :: .less :: (used ++ [.greater]), by simp, .struct hname hform⟩
          · cases h
            exact ⟨[.word name], rfl, .name hname⟩
      · cases h
        exact ⟨[.opening, .closing], rfl, .unit⟩
      · cases h
      · next o name tail =>
        split at h
        · next hname =>
          obtain ⟨⟨target, _⟩, htarget, hend⟩ := bind_eq_ok_iff.mp h
          cases pure_eq_ok_iff.mp hend
          obtain ⟨used, rfl, hform⟩ := readTy_sound fuel htarget
          exact ⟨.amp :: .origin o :: .word name :: used, rfl, hname ▸ .refMut hform⟩
        · next hname =>
          obtain ⟨⟨target, _⟩, htarget, hend⟩ := bind_eq_ok_iff.mp h
          cases pure_eq_ok_iff.mp hend
          obtain ⟨used, hsplit, hform⟩ := readTy_sound fuel htarget
          exact hform.ref_of_split hsplit (by simpa using hname)
      · next o tail hword =>
        obtain ⟨⟨target, _⟩, htarget, hend⟩ := bind_eq_ok_iff.mp h
        cases pure_eq_ok_iff.mp hend
        obtain ⟨used, hsplit, hform⟩ := readTy_sound fuel htarget
        -- No word follows the origin here, so `mut` does not.
        refine hform.ref_of_split hsplit fun hmut => ?_
        obtain ⟨tail', htail⟩ := List.head?_eq_some_iff.mp hmut
        exact hword _ _ htail
      · cases h
      · cases h

theorem readArg_sound : (fuel : Nat) → {tokens rest : List Token} → {arg : Arg} →
    readArg fuel tokens = .ok (arg, rest) → ∃ used, tokens = used ++ rest ∧ ArgForm used arg
  | 0, _, _, _, h => by cases h
  | fuel + 1, tokens, rest, arg, h => by
      unfold readArg at h
      split at h
      · next o tail =>
        cases h
        exact ⟨[.origin o], rfl, .origin⟩
      · obtain ⟨⟨t, _⟩, ht, hend⟩ := bind_eq_ok_iff.mp h
        cases pure_eq_ok_iff.mp hend
        obtain ⟨used, hsplit, hform⟩ := readTy_sound fuel ht
        exact ⟨used, hsplit, .ty hform⟩

/-- Arguments are read with the bracket that closes them. -/
theorem readArgs_sound : (fuel : Nat) → {tokens rest : List Token} → {args : List Arg} →
    readArgs fuel tokens = .ok (args, rest) →
      ∃ used, tokens = used ++ .greater :: rest ∧ ArgsForm used args
  | 0, _, _, _, h => by cases h
  | fuel + 1, tokens, rest, args, h => by
      unfold readArgs at h
      obtain ⟨⟨arg, behind⟩, harg, hbehind⟩ := bind_eq_ok_iff.mp h
      obtain ⟨first, rfl, hfirst⟩ := readArg_sound fuel harg
      dsimp only at hbehind
      split at hbehind
      · next tail =>
        obtain ⟨⟨more, _⟩, hmore, hend⟩ := bind_eq_ok_iff.mp hbehind
        cases pure_eq_ok_iff.mp hend
        obtain ⟨used, rfl, hform⟩ := readArgs_sound fuel hmore
        exact ⟨first ++ .comma :: used, by simp, .more hfirst hform⟩
      · cases pure_eq_ok_iff.mp hbehind
        exact ⟨first, rfl, .one hfirst⟩
      · cases hbehind

end

/-! ## Readers find every form -/

-- A list takes a step without a token to reach its first argument, and an argument one to become a
-- type. The bracket or the comma in front, at two steps a token, has paid for both.
mutual

theorem readTy_complete {used : List Token} {t : Ty} (h : TyForm used t) {fuel : Nat}
    (hfuel : 2 * used.length ≤ fuel) {rest : List Token} (hless : rest.head? ≠ some .less) :
    readTy fuel (used ++ rest) = .ok (t, rest) := by
  match fuel, h with
  | 0, h =>
      obtain ⟨_, _, rfl, _⟩ := h.exists_cons
      simp at hfuel
  | fuel + 1, .i32 => rfl
  | fuel + 1, .unit => rfl
  | fuel + 1, .refMut h =>
      simp only [List.length_cons] at hfuel
      have ih := readTy_complete h (show _ ≤ fuel by omega) hless
      rw [List.cons_append, List.cons_append, List.cons_append, readTy_refMut, ih]
      rfl
  | fuel + 1, .ref h hmut =>
      simp only [List.length_cons] at hfuel
      have ih := readTy_complete h (show _ ≤ fuel by omega) hless
      rw [← h.head?_append] at hmut
      rw [List.cons_append, List.cons_append, readTy_ref hmut, ih]
      rfl
  | fuel + 1, .name hname => exact readTy_name hname hless
  | fuel + 1, .struct hname hargs =>
      simp only [List.length_cons, List.length_append] at hfuel
      have ih := readArgs_complete hargs (show _ ≤ fuel by omega) rest
      rw [List.cons_append, List.cons_append, readTy_struct hname, List.append_assoc,
        List.singleton_append, ih]
      rfl

theorem readArg_complete {used : List Token} {arg : Arg} (h : ArgForm used arg) {fuel : Nat}
    (hfuel : 2 * used.length + 1 ≤ fuel) {rest : List Token} (hless : rest.head? ≠ some .less) :
    readArg fuel (used ++ rest) = .ok (arg, rest) := by
  match fuel, h with
  | fuel + 1, .origin => rfl
  | fuel + 1, .ty h =>
      have ih := readTy_complete h (show _ ≤ fuel by omega) hless
      rw [readArg_ty h.head?_ne_origin, ih]
      rfl

theorem readArgs_complete {used : List Token} {args : List Arg} (h : ArgsForm used args)
    {fuel : Nat} (hfuel : 2 * used.length + 2 ≤ fuel) (rest : List Token) :
    readArgs fuel (used ++ .greater :: rest) = .ok (args, rest) := by
  match fuel, h with
  | fuel + 1, .one harg =>
      rw [readArgs, readArg_complete harg (show _ ≤ fuel by omega) (by simp)]
      rfl
  | fuel + 1, .more harg hargs =>
      simp only [List.length_cons, List.length_append] at hfuel
      have ih := readArgs_complete hargs (show _ ≤ fuel by omega) rest
      rw [readArgs, List.append_assoc, List.cons_append,
        readArg_complete harg (show _ ≤ fuel by omega) (by simp)]
      show (readArgs fuel _ >>= _) = _
      rw [ih]
      rfl

end

theorem readTy_whole_iff (tokens : List Token) (t : Ty) :
    readTy (2 * tokens.length + 1) tokens = .ok (t, []) ↔ TyForm tokens t := by
  constructor
  · intro h
    obtain ⟨used, rfl, hform⟩ := readTy_sound _ h
    rwa [List.append_nil]
  · intro h
    have hread := readTy_complete h (Nat.le_succ _) (show ([] : List Token).head? ≠ _ by simp)
    rwa [List.append_nil] at hread

theorem readFields_sound {tokens rest : List Token} {fields : List String}
    (h : readFields tokens = .ok (fields, rest)) :
    tokens = fields.flatMap (fun field => [.dot, .word field]) ++ rest := by
  fun_induction readFields tokens generalizing fields with
  | case1 name tail ih =>
      obtain ⟨⟨more, _⟩, hmore, hend⟩ := bind_eq_ok_iff.mp h
      cases pure_eq_ok_iff.mp hend
      rw [ih hmore]
      rfl
  | case2 => cases h
  | case3 =>
      cases h
      rfl

theorem readFields_complete (fields : List String) :
    readFields (fields.flatMap fun field => [.dot, .word field]) = .ok (fields, []) := by
  induction fields with
  | nil => rfl
  | cons field fields ih =>
      rw [List.flatMap_cons, List.cons_append, List.cons_append, List.nil_append, readFields, ih]
      rfl

theorem readPath_whole_iff (deref : Bool) (tokens : List Token) (place : Place) :
    readPath deref tokens = .ok (place, []) ↔ place.deref = deref ∧
      tokens = .word place.root :: place.fields.flatMap fun field => [.dot, .word field] := by
  constructor
  · intro h
    unfold readPath at h
    split at h
    · obtain ⟨⟨fields, _⟩, hfields, hend⟩ := bind_eq_ok_iff.mp h
      cases pure_eq_ok_iff.mp hend
      rw [readFields_sound hfields, List.append_nil]
      exact ⟨rfl, rfl⟩
    · cases h
  · rintro ⟨rfl, rfl⟩
    rw [readPath, readFields_complete]
    rfl

theorem readPlace_whole_iff (tokens : List Token) (place : Place) :
    readPlace tokens = .ok (place, []) ↔ PlaceForm tokens place := by
  unfold readPlace PlaceForm
  split <;> rw [readPath_whole_iff] <;> cases place.deref <;> simp_all

theorem readOrigin_whole_iff (tokens : List Token) (o : Origin) :
    readOrigin tokens = .ok (o, []) ↔ OriginForm tokens o := by
  unfold readOrigin OriginForm
  split <;> simp_all

theorem readSlot_whole_iff (tokens : List Token) (slot : GenericSlot) :
    readSlot tokens = .ok (slot, []) ↔ SlotForm tokens slot := by
  unfold readSlot
  split <;> cases slot <;> simp_all [SlotForm]

/-! ## Forms have no stray token -/

mutual

theorem TyForm.stray_notMem {tokens : List Token} {t : Ty} (h : TyForm tokens t) (c : Char) :
    .stray c ∉ tokens := by
  match h with
  | .i32 => simp
  | .unit => simp
  | .refMut h => simpa using h.stray_notMem c
  | .ref h _ => simpa using h.stray_notMem c
  | .name _ => simp
  | .struct _ h => simpa using h.stray_notMem c

theorem ArgForm.stray_notMem {tokens : List Token} {arg : Arg} (h : ArgForm tokens arg)
    (c : Char) : .stray c ∉ tokens := by
  match h with
  | .origin => simp
  | .ty h => exact h.stray_notMem c

theorem ArgsForm.stray_notMem {tokens : List Token} {args : List Arg} (h : ArgsForm tokens args)
    (c : Char) : .stray c ∉ tokens := by
  match h with
  | .one h => exact h.stray_notMem c
  | .more h hs => simpa using ⟨h.stray_notMem c, hs.stray_notMem c⟩

end

theorem PlaceForm.stray_notMem {tokens : List Token} {place : Place} (h : PlaceForm tokens place)
    (c : Char) : .stray c ∉ tokens := by
  subst h
  cases place.deref <;> simp

theorem OriginForm.stray_notMem {tokens : List Token} {o : Origin} (h : OriginForm tokens o)
    (c : Char) : .stray c ∉ tokens := by
  subst h
  simp

theorem SlotForm.stray_notMem {tokens : List Token} {slot : GenericSlot}
    (h : SlotForm tokens slot) (c : Char) : .stray c ∉ tokens := by
  cases slot <;> subst h <;> simp

/-! ## Parsers -/

/-- A text writes a value: it splits into lexemes that have the form of the value. -/
def Writes {α : Type} (form : List Token → α → Prop) (text : String) (value : α) : Prop :=
  ∃ tokens, Splits text.toList tokens ∧ form tokens value

/-- A parser gives the value that a text writes, and for a text that writes none an error that
quotes it. -/
structure Parses {α : Type} (parse : String → Except Error α) (kind : Form)
    (form : List Token → α → Prop) : Prop where
  accepts : ∀ text value, parse text = .ok value ↔ Writes form text value
  refuses : ∀ text, (¬∃ value, Writes form text value) →
    ∃ column, parse text = .error ⟨kind, text, column⟩

section

variable {α : Type} {form : List Token → α → Prop}

theorem writes_iff (hstray : ∀ {tokens value}, form tokens value → ∀ c, .stray c ∉ tokens)
    {text : String} {value : α} : Writes form text value ↔ form (tokensOf text.toList) value := by
  constructor
  · rintro ⟨tokens, hsplits, hform⟩
    rwa [← hsplits.eq_tokensOf]
  · intro hform
    exact ⟨_, splits_tokensOf _ (hstray hform), hform⟩

variable {kind : Form} {read : List Token → Except (List Token) (α × List Token)}

theorem parseWith_eq_ok_iff {text : String} {value : α} :
    parseWith kind read text = .ok value ↔ read (tokensOf text.toList) = .ok (value, []) := by
  dsimp only [parseWith, tokensOf]
  split <;> simp_all

theorem parseWith_eq_error (text : String)
    (h : ¬∃ value, read (tokensOf text.toList) = .ok (value, [])) :
    ∃ column, parseWith kind read text = .error ⟨kind, text, column⟩ := by
  dsimp only [parseWith, tokensOf] at h ⊢
  split
  · next value heq => exact absurd ⟨value, heq⟩ h
  · exact ⟨_, rfl⟩
  · exact ⟨_, rfl⟩

theorem parses_of_reads (hread : ∀ tokens value, read tokens = .ok (value, []) ↔ form tokens value)
    (hstray : ∀ {tokens value}, form tokens value → ∀ c, .stray c ∉ tokens) :
    Parses (parseWith kind read) kind form where
  accepts text value := by
    rw [parseWith_eq_ok_iff, hread, writes_iff hstray]
  refuses text h := by
    refine parseWith_eq_error text ?_
    rintro ⟨value, hvalue⟩
    exact h ⟨value, (writes_iff hstray).mpr ((hread _ _).mp hvalue)⟩

end

/-- Each parser accepts exactly the texts of its grammar. -/
theorem parsers_exact :
    Parses parseTy .ty TyForm ∧ Parses parsePlace .place PlaceForm ∧
      Parses parseOrigin .origin OriginForm ∧ Parses parseSlot .slot SlotForm :=
  ⟨parses_of_reads readTy_whole_iff TyForm.stray_notMem,
    parses_of_reads readPlace_whole_iff PlaceForm.stray_notMem,
    parses_of_reads readOrigin_whole_iff OriginForm.stray_notMem,
    parses_of_reads readSlot_whole_iff SlotForm.stray_notMem⟩

end OriginFacts.Surface
