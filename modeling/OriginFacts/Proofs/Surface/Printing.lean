import OriginFacts.Proofs.Surface.Grammar
import OriginFacts.Ty.Printer

/-!
Printing against parsing. A printed type is read back as itself exactly if its origins and names are
lexemes and no keyword stands where a name should. What a parser gives back is always of this kind,
so a text that is parsed, printed and parsed again changes no more. Places, origins and slots are
read back likewise.
-/

namespace OriginFacts

open Surface

/-! ## What can be spelled -/

/-- The type is a struct of that name. -/
def Ty.IsNamed (name : String) : Ty → Prop
  | .struct other _ => other = name
  | _ => False

instance (name : String) : (t : Ty) → Decidable (t.IsNamed name)
  | .struct other _ => inferInstanceAs (Decidable (other = name))
  | .i32 => isFalse id
  | .unit => isFalse id
  | .ref .. => isFalse id

mutual

/-- Every origin of the type is a lexeme, every name of a struct is one other than `i32`, and no
shared reference points directly to a struct called `mut`. -/
def Ty.Spellable : Ty → Prop
  | .i32 => True
  | .unit => True
  | .ref m o target =>
    IsOrigin o.toList ∧ ¬ (m = .shared ∧ target.IsNamed "mut") ∧ target.Spellable
  | .struct name args => IsName name.toList ∧ name ≠ "i32" ∧ Arg.AllSpellable args

def Arg.Spellable : Arg → Prop
  | .origin o => IsOrigin o.toList
  | .ty t => t.Spellable

def Arg.AllSpellable : List Arg → Prop
  | [] => True
  | a :: args => a.Spellable ∧ Arg.AllSpellable args

end

mutual

def Ty.decideSpellable : (t : Ty) → Decidable t.Spellable
  | .i32 => isTrue trivial
  | .unit => isTrue trivial
  | .ref m _ target =>
    have := target.decideSpellable
    inferInstanceAs (Decidable (_ ∧ ¬ (m = .shared ∧ target.IsNamed "mut") ∧ _))
  | .struct _ args =>
    have := Arg.decideAllSpellable args
    inferInstanceAs (Decidable (_ ∧ _ ∧ _))

def Arg.decideSpellable : (a : Arg) → Decidable a.Spellable
  | .origin o => inferInstanceAs (Decidable (IsOrigin o.toList))
  | .ty t => t.decideSpellable

def Arg.decideAllSpellable : (args : List Arg) → Decidable (Arg.AllSpellable args)
  | [] => isTrue trivial
  | a :: args =>
    have := a.decideSpellable
    have := Arg.decideAllSpellable args
    inferInstanceAs (Decidable (_ ∧ _))

end

instance (t : Ty) : Decidable t.Spellable := t.decideSpellable

/-- The variable and the fields are names. -/
def Place.Spellable (place : Place) : Prop :=
  ∀ name ∈ place.root :: place.fields, IsName name.toList

instance (place : Place) : Decidable place.Spellable :=
  inferInstanceAs (Decidable (∀ name ∈ place.root :: place.fields, IsName name.toList))

def GenericSlot.Spellable : GenericSlot → Prop
  | .origin o => IsOrigin o.toList
  | .ty name => IsName name.toList

instance : (slot : GenericSlot) → Decidable slot.Spellable
  | .origin o => inferInstanceAs (Decidable (IsOrigin o.toList))
  | .ty name => inferInstanceAs (Decidable (IsName name.toList))

namespace Surface

/-! ## Tokens of a type -/

def keywordTokens : Mutability → List Token
  | .shared => []
  | .mutable => [.word "mut"]

mutual

/-- The tokens of a type in surface form. -/
def tyTokens : Ty → List Token
  | .i32 => [.word "i32"]
  | .unit => [.opening, .closing]
  | .ref m o target => .amp :: .origin o :: (keywordTokens m ++ tyTokens target)
  | .struct name [] => [.word name]
  | .struct name (a :: args) =>
    .word name :: .less :: (argTokens a ++ restTokens args ++ [.greater])

def argTokens : Arg → List Token
  | .origin o => [.origin o]
  | .ty t => tyTokens t

/-- The tokens of the arguments after the first, each behind a comma. -/
def restTokens : List Arg → List Token
  | [] => []
  | a :: args => .comma :: (argTokens a ++ restTokens args)

end

theorem head?_tyTokens_ne_mut {t : Ty} (h : ¬ t.IsNamed "mut") :
    (tyTokens t).head? ≠ some (.word "mut") := by
  cases t with
  | i32 => simp [tyTokens]
  | unit => simp [tyTokens]
  | ref m o target => simp [tyTokens]
  | struct name args => cases args <;> simpa [tyTokens, Ty.IsNamed] using h

mutual

theorem tyForm_tyTokens : (t : Ty) → t.Spellable → TyForm (tyTokens t) t
  | .i32, _ => .i32
  | .unit, _ => .unit
  | .ref .shared o target, ⟨_, hmut, htarget⟩ => by
      simp only [true_and] at hmut
      exact .ref (tyForm_tyTokens target htarget) (head?_tyTokens_ne_mut hmut)
  | .ref .mutable o target, ⟨_, _, htarget⟩ => .refMut (tyForm_tyTokens target htarget)
  | .struct name [], ⟨_, hname, _⟩ => .name hname
  | .struct name (a :: args), ⟨_, hname, ha, hargs⟩ =>
      .struct hname (argsForm_restTokens args hargs (argForm_argTokens a ha))

theorem argForm_argTokens : (a : Arg) → a.Spellable → ArgForm (argTokens a) a
  | .origin _, _ => .origin
  | .ty t, h => .ty (tyForm_tyTokens t h)

theorem argsForm_restTokens : (args : List Arg) → Arg.AllSpellable args →
    {first : List Token} → {a : Arg} → ArgForm first a →
      ArgsForm (first ++ restTokens args) (a :: args)
  | [], _, first, a, hfirst => by
      simp only [restTokens, List.append_nil]
      exact .one hfirst
  | b :: args, ⟨hb, hargs⟩, first, a, hfirst =>
      .more hfirst (argsForm_restTokens args hargs (argForm_argTokens b hb))

end

/-! ## Lexing what is printed -/

/-- No character of a name is in front, so a name before this text ends there. -/
def stops : List Char → Bool
  | [] => true
  | c :: _ => !isNameChar c

theorem takeWhile_append_of_stops {body rest : List Char} (hbody : ∀ d ∈ body, isNameChar d = true)
    (hrest : stops rest = true) : (body ++ rest).takeWhile isNameChar = body := by
  rw [List.takeWhile_append_of_pos hbody]
  cases rest with
  | nil => simp
  | cons c cs => simp_all [stops]

theorem tokensOf_append (token : Token) (h : token.IsLexeme) {rest : List Char}
    (hrest : stops rest = true) : tokensOf (token.chars ++ rest) = token :: tokensOf rest := by
  refine tokensOf_lexeme h ?_
  obtain ⟨c, body, hchars, hbody⟩ := h.exists_chars
  rw [hchars, List.cons_append]
  exact longest_of_takeWhile (by rw [hchars, takeWhile_append_of_stops hbody hrest])

theorem tokensOf_word {name : String} (h : IsName name.toList) {rest : List Char}
    (hrest : stops rest = true) :
    tokensOf (name.toList ++ rest) = .word name :: tokensOf rest :=
  tokensOf_append (.word name) h hrest

theorem tokensOf_tick {o : String} (h : IsOrigin o.toList) {rest : List Char}
    (hrest : stops rest = true) : tokensOf (o.toList ++ rest) = .origin o :: tokensOf rest :=
  tokensOf_append (.origin o) h hrest

theorem tokensOf_char (c : Char) (cs : List Char)
    (hc : isBlank c = false ∧ isNameStart c = false ∧ c ≠ '\'') :
    tokensOf (c :: cs) = .ofChar c :: tokensOf cs :=
  tokensOf_mark hc.1 hc.2.1 fun h => hc.2.2 h.1

theorem tokensOf_keyword (m : Mutability) (cs : List Char) :
    tokensOf (m.keyword.toList ++ cs) = keywordTokens m ++ tokensOf cs := by
  cases m with
  | shared => rfl
  | mutable =>
      have hword : tokensOf ("mut".toList ++ ' ' :: cs) = _ := tokensOf_word (by decide) rfl
      rw [tokensOf_blank rfl] at hword
      exact hword

theorem stops_renderRest (args : List Arg) (rest : List Char) :
    stops ((Arg.renderRest args).toList ++ '>' :: rest) = true := by
  cases args with
  | nil => rfl
  | cons a args =>
      simp only [Arg.renderRest, String.toList_append]
      rfl

mutual

theorem tokensOf_render : (t : Ty) → t.Spellable → {rest : List Char} → stops rest = true →
    tokensOf (t.render.toList ++ rest) = tyTokens t ++ tokensOf rest
  | .i32, _, _, hrest => tokensOf_append (.word "i32") (show IsName _ by decide) hrest
  | .unit, _, rest, hrest => by
      show tokensOf ('(' :: ')' :: rest) = _
      rw [tokensOf_char '(' _ (by decide), tokensOf_char ')' _ (by decide)]
      rfl
  | .ref m o target, ⟨ho, _, htarget⟩, rest, hrest => by
      simp only [Ty.render, tyTokens, String.toList_append, List.append_assoc, List.cons_append]
      show tokensOf ('&' :: (o.toList ++ ' ' :: (m.keyword.toList ++
        (target.render.toList ++ rest)))) = _
      rw [tokensOf_char '&' _ (by decide), tokensOf_tick ho rfl, tokensOf_blank rfl,
        tokensOf_keyword, tokensOf_render target htarget hrest]
      rfl
  | .struct name [], ⟨hname, _⟩, rest, hrest => by
      rw [Ty.render]
      exact tokensOf_word hname hrest
  | .struct name (a :: args), ⟨hname, _, ha, hargs⟩, rest, hrest => by
      simp only [Ty.render, tyTokens, String.toList_append, List.append_assoc, List.cons_append]
      show tokensOf (name.toList ++ '<' :: (a.render.toList ++
        ((Arg.renderRest args).toList ++ '>' :: rest))) = _
      rw [tokensOf_word hname rfl, tokensOf_char '<' _ (by decide),
        tokensOf_renderArg a ha (stops_renderRest args rest), tokensOf_renderRest args hargs rest]
      rfl

theorem tokensOf_renderArg : (a : Arg) → a.Spellable → {rest : List Char} → stops rest = true →
    tokensOf (a.render.toList ++ rest) = argTokens a ++ tokensOf rest
  | .origin _, h, _, hrest => tokensOf_tick h hrest
  | .ty t, h, _, hrest => tokensOf_render t h hrest

theorem tokensOf_renderRest : (args : List Arg) → Arg.AllSpellable args → (rest : List Char) →
    tokensOf ((Arg.renderRest args).toList ++ '>' :: rest) =
      restTokens args ++ .greater :: tokensOf rest
  | [], _, rest => tokensOf_char '>' rest (by decide)
  | a :: args, ⟨ha, hargs⟩, rest => by
      simp only [Arg.renderRest, restTokens, String.toList_append, List.append_assoc,
        List.cons_append]
      show tokensOf (',' :: ' ' :: (a.render.toList ++
        ((Arg.renderRest args).toList ++ '>' :: rest))) = _
      rw [tokensOf_char ',' _ (by decide), tokensOf_blank rfl,
        tokensOf_renderArg a ha (stops_renderRest args rest), tokensOf_renderRest args hargs rest]
      rfl

end

/-! ## Parsing what is printed -/

theorem parseTy_eq_ok_iff {text : String} {t : Ty} :
    parseTy text = .ok t ↔ Writes TyForm text t :=
  (parses_of_reads readTy_whole_iff TyForm.stray_notMem).accepts text t

theorem writes_render {t : Ty} (h : t.Spellable) : Writes TyForm t.render t := by
  have htokens : tokensOf (t.render.toList ++ []) = _ := tokensOf_render t h rfl
  rw [List.append_nil, tokensOf_nil, List.append_nil] at htokens
  rw [writes_iff TyForm.stray_notMem, htokens]
  exact tyForm_tyTokens t h

/-! ## What is parsed can be spelled -/

theorem Splits.isLexeme {text : List Char} {tokens : List Token} (h : Splits text tokens) :
    ∀ token ∈ tokens, token.IsLexeme := by
  induction h with
  | nil => simp
  | blank _ _ ih => exact ih
  | lexeme hlexeme _ _ ih => simpa using ⟨hlexeme, ih⟩

theorem TyForm.head?_of_isNamed {tokens : List Token} {t : Ty} {name : String} (h : TyForm tokens t)
    (hname : t.IsNamed name) : tokens.head? = some (.word name) := by
  cases h <;> simp_all [Ty.IsNamed]

mutual

theorem TyForm.spellable {tokens : List Token} {t : Ty} (h : TyForm tokens t)
    (hlexemes : ∀ token ∈ tokens, token.IsLexeme) : t.Spellable := by
  match h with
  | .i32 => trivial
  | .unit => trivial
  | .refMut h =>
      simp only [List.forall_mem_cons] at hlexemes
      exact ⟨hlexemes.2.1, by simp, h.spellable hlexemes.2.2.2⟩
  | .ref h hmut =>
      simp only [List.forall_mem_cons] at hlexemes
      exact ⟨hlexemes.2.1, fun hnamed => hmut (h.head?_of_isNamed hnamed.2),
        h.spellable hlexemes.2.2⟩
  | .name hname =>
      simp only [List.forall_mem_cons] at hlexemes
      exact ⟨hlexemes.1, hname, trivial⟩
  | .struct hname h =>
      simp only [List.forall_mem_cons, List.forall_mem_append] at hlexemes
      exact ⟨hlexemes.1, hname, h.spellable hlexemes.2.2.1⟩

theorem ArgForm.spellable {tokens : List Token} {arg : Arg} (h : ArgForm tokens arg)
    (hlexemes : ∀ token ∈ tokens, token.IsLexeme) : arg.Spellable := by
  match h with
  | .origin => exact hlexemes _ (List.mem_singleton_self _)
  | .ty h => exact h.spellable hlexemes

theorem ArgsForm.spellable {tokens : List Token} {args : List Arg} (h : ArgsForm tokens args)
    (hlexemes : ∀ token ∈ tokens, token.IsLexeme) : Arg.AllSpellable args := by
  match h with
  | .one h => exact ⟨h.spellable hlexemes, trivial⟩
  | .more h hs =>
      simp only [List.forall_mem_append, List.forall_mem_cons] at hlexemes
      exact ⟨h.spellable hlexemes.1, hs.spellable hlexemes.2.2⟩

end

theorem spellable_of_writes {text : String} {t : Ty} (h : Writes TyForm text t) : t.Spellable := by
  obtain ⟨tokens, hsplits, hform⟩ := h
  exact hform.spellable hsplits.isLexeme

theorem exists_parseTy_iff {t : Ty} : (∃ text, parseTy text = .ok t) ↔ t.Spellable := by
  simp only [parseTy_eq_ok_iff]
  constructor
  · rintro ⟨text, h⟩
    exact spellable_of_writes h
  · intro h
    exact ⟨t.render, writes_render h⟩

/-- A printed type is read back as itself exactly if it can be spelled. The types that can be
spelled are the ones that some text writes, so that parsing, printing and parsing again ends as the
first parsing did. -/
theorem printing_parsing :
    (∀ t : Ty, parseTy t.render = .ok t ↔ t.Spellable) ∧
      (∀ t : Ty, (∃ text, parseTy text = .ok t) ↔ t.Spellable) ∧
      ∀ text, (parseTy text >>= fun t => parseTy t.render) = parseTy text := by
  refine ⟨?_, fun t => exists_parseTy_iff, ?_⟩
  · intro t
    rw [parseTy_eq_ok_iff]
    exact ⟨spellable_of_writes, writes_render⟩
  · intro text
    cases h : parseTy text with
    | error e => rfl
    | ok t => exact parseTy_eq_ok_iff.mpr (writes_render (exists_parseTy_iff.mp ⟨text, h⟩))

example : (Ty.ref .shared "'a" (.struct "S" [.origin "'b", .ty (.struct "mut" [])])).Spellable := by
  decide

example : ¬ (Ty.ref .shared "'a" (.struct "mut" [.origin "'b", .ty .i32])).Spellable := by
  decide

/-! ## Places, origins and slots -/

theorem toList_render_place (base : String) (fields : List String) :
    (fields.foldl (fun path field => path ++ "." ++ field) base).toList =
      base.toList ++ fields.flatMap fun field => '.' :: field.toList := by
  induction fields generalizing base with
  | nil => simp
  | cons field fields ih =>
      rw [List.foldl_cons, ih, List.flatMap_cons]
      simp only [String.toList_append, List.append_assoc]
      rfl

theorem stops_fields (fields : List String) :
    stops (fields.flatMap fun field => '.' :: field.toList) = true := by
  cases fields with
  | nil => rfl
  | cons field fields => rw [List.flatMap_cons]; rfl

theorem tokensOf_fields {fields : List String} (h : ∀ field ∈ fields, IsName field.toList) :
    tokensOf (fields.flatMap fun field => '.' :: field.toList) =
      fields.flatMap fun field => [.dot, .word field] := by
  induction fields with
  | nil => exact tokensOf_nil
  | cons field fields ih =>
      obtain ⟨hfield, hfields⟩ := List.forall_mem_cons.mp h
      rw [List.flatMap_cons, List.flatMap_cons, List.cons_append, tokensOf_char '.' _ (by decide),
        tokensOf_word hfield (stops_fields fields), ih hfields]
      rfl

theorem writes_place {place : Place} (h : place.Spellable) :
    Writes PlaceForm place.render place := by
  obtain ⟨hroot, hfields⟩ := List.forall_mem_cons.mp h
  have hpath : tokensOf (place.root.toList ++ place.fields.flatMap fun field => '.' :: field.toList) =
      .word place.root :: place.fields.flatMap fun field => [.dot, .word field] := by
    rw [tokensOf_word hroot (stops_fields place.fields), tokensOf_fields hfields]
  rw [writes_iff PlaceForm.stray_notMem, Place.render, toList_render_place, Place.base, PlaceForm]
  cases place.deref with
  | false => exact hpath
  | true =>
      simp only [if_true, String.toList_append, List.append_assoc]
      show tokensOf ('*' :: (place.root.toList ++ _)) = _
      rw [tokensOf_char '*' _ (by decide), hpath]
      rfl

theorem tokensOf_lone (token : Token) (h : token.IsLexeme) : tokensOf token.chars = [token] := by
  have htokens : tokensOf (token.chars ++ []) = _ := tokensOf_append token h rfl
  rwa [List.append_nil, tokensOf_nil] at htokens

theorem writes_origin {o : Origin} (h : IsOrigin o.toList) : Writes OriginForm o o := by
  rw [writes_iff OriginForm.stray_notMem]
  exact tokensOf_lone (.origin o) h

theorem writes_slot {slot : GenericSlot} (h : slot.Spellable) : Writes SlotForm slot.name slot := by
  rw [writes_iff SlotForm.stray_notMem]
  cases slot with
  | origin o => exact tokensOf_lone (.origin o) h
  | ty name => exact tokensOf_lone (.word name) h

end Surface

end OriginFacts
