import OriginFacts.Proofs.Resolve
import OriginFacts.Proofs.Surface.Printing

/-!
The origins of a type as they are written. A text is scanned from left to right for origins, without
a look at what stands between them. Parsing a type finds the same origins in the same order, however
deep in the type they are.
-/

namespace OriginFacts.Surface

/-! ## Origins in a text -/

/-- The longest lexeme at the start of the text is this origin. -/
def OriginStarts (text : List Char) (o : Origin) : Prop :=
  (Token.origin o).IsLexeme ∧ (Token.origin o).chars <+: text ∧ (Token.origin o).Longest text

/-- The origin at the start of a text. -/
def originAt? : List Char → Option Origin
  | [] => none
  | c :: cs =>
    if c = '\'' ∧ cs.takeWhile isNameChar ≠ [] then
      some (String.ofList (c :: cs.takeWhile isNameChar))
    else none

/-- The origins of a text from left to right, wherever one starts. -/
def originsIn : List Char → List Origin
  | [] => []
  | c :: cs => (originAt? (c :: cs)).toList ++ originsIn cs

theorem originAt?_eq_some_iff {text : List Char} {o : Origin} :
    originAt? text = some o ↔ OriginStarts text o := by
  constructor
  · intro h
    unfold originAt? at h
    split at h
    · cases h
    · next c cs =>
      split at h
      · next horigin =>
        obtain ⟨rfl, hbody⟩ := horigin
        cases h
        refine ⟨⟨cs.takeWhile isNameChar, by simp, hbody, nameChar_of_mem_takeWhile⟩, ?_,
          longest_of_takeWhile (by simp [Token.chars])⟩
        simpa [Token.chars] using List.takeWhile_prefix isNameChar
      · cases h
  · rintro ⟨hlexeme, ⟨rest, rfl⟩, hlongest⟩
    -- The lexer takes the longest lexeme, and at a tick it looks for it as `originAt?` does.
    have htokens := tokensOf_lexeme hlexeme hlongest
    have hform : IsOrigin o.toList := hlexeme
    obtain ⟨body, hspelled, hne, hbody⟩ := hform
    have hchars : (Token.origin o).chars = '\'' :: body := hspelled
    have hsome : (body ++ rest).takeWhile isNameChar ≠ [] := by
      rw [List.takeWhile_append_of_pos fun d hd => isNameChar_iff.mpr (hbody d hd)]
      exact List.append_ne_nil_of_left_ne_nil hne _
    rw [hchars, List.cons_append] at htokens ⊢
    rw [tokensOf_origin hsome] at htokens
    have hname := Token.origin.inj (List.cons.inj htokens).1
    rw [originAt?, if_pos ⟨rfl, hsome⟩, hname]

theorem originAt?_eq_none {c : Char} (hc : c ≠ '\'') (cs : List Char) :
    originAt? (c :: cs) = none :=
  if_neg fun h => hc h.1

theorem originsIn_cons_of_ne {c : Char} (hc : c ≠ '\'') (cs : List Char) :
    originsIn (c :: cs) = originsIn cs := by
  rw [originsIn, originAt?_eq_none hc]
  rfl

theorem originsIn_dropWhile (cs : List Char) :
    originsIn (cs.dropWhile isNameChar) = originsIn cs := by
  induction cs with
  | nil => rfl
  | cons c cs ih =>
      rw [List.dropWhile_cons]
      split
      · next hc =>
        rw [ih, originsIn_cons_of_ne]
        rintro rfl
        cases hc
      · rfl

/-! ## Origins among tokens -/

def Token.origin? : Token → Option Origin
  | .origin name => some name
  | _ => none

theorem origin?_ofChar (c : Char) : (Token.ofChar c).origin? = none := by
  unfold Token.ofChar
  split <;> rfl

theorem filterMap_tokensOf (text : List Char) :
    (tokensOf text).filterMap Token.origin? = originsIn text := by
  induction text using lex.induct with
  | case1 =>
      rw [tokensOf_nil]
      rfl
  | case2 c cs hblank ih =>
      rw [tokensOf_blank hblank, ih, originsIn_cons_of_ne]
      rintro rfl
      cases hblank
  | case3 c cs hblank hname ih =>
      rw [tokensOf_name hname, List.filterMap_cons_none rfl, ih, originsIn_dropWhile,
        originsIn_cons_of_ne]
      rintro rfl
      cases hname
  | case4 c cs hblank hname horigin ih =>
      rw [originsIn, originAt?, if_pos horigin]
      obtain ⟨rfl, hbody⟩ := horigin
      rw [tokensOf_origin hbody, List.filterMap_cons, ih, originsIn_dropWhile]
      rfl
  | case5 c cs hblank hname horigin ih =>
      rw [Bool.not_eq_true] at hblank hname
      rw [tokensOf_mark hblank hname horigin, List.filterMap_cons_none (origin?_ofChar c), ih,
        originsIn, originAt?, if_neg horigin]
      rfl

mutual

theorem TyForm.origins {tokens : List Token} {t : Ty} (h : TyForm tokens t) :
    t.origins = tokens.filterMap Token.origin? := by
  match h with
  | .i32 => rfl
  | .unit => rfl
  | .refMut h =>
      rw [Ty.origins_ref, h.origins]
      rfl
  | .ref h _ =>
      rw [Ty.origins_ref, h.origins]
      rfl
  | .name _ => rfl
  | .struct _ h =>
      rw [List.filterMap_cons_none rfl, List.filterMap_cons_none rfl, List.filterMap_append,
        ← h.origins]
      exact (List.append_nil _).symm

theorem ArgForm.origins {tokens : List Token} {arg : Arg} (h : ArgForm tokens arg) :
    arg.collectOrigins [] = tokens.filterMap Token.origin? := by
  match h with
  | .origin => rfl
  | .ty h => exact h.origins

theorem ArgsForm.origins {tokens : List Token} {args : List Arg} (h : ArgsForm tokens args) :
    Arg.collectAll [] args = tokens.filterMap Token.origin? := by
  match h with
  | .one h =>
      rw [Arg.collectAll_cons, h.origins]
      exact List.append_nil _
  | .more h hs =>
      rw [Arg.collectAll_cons, h.origins, hs.origins, List.filterMap_append,
        List.filterMap_cons_none rfl]

end

theorem origins_of_parseTy {text : String} {t : Ty} (h : parseTy text = .ok t) :
    t.origins = originsIn text.toList := by
  have hform := (writes_iff TyForm.stray_notMem).mp (parseTy_eq_ok_iff.mp h)
  rw [hform.origins, filterMap_tokensOf]

/-- The origins of a type that was parsed are those of the text, from left to right and as often as
they stand there, each as long as it can be. Collected behind others, they leave these in front. -/
theorem origins_as_written :
    (∀ text t, parseTy text = .ok t → t.origins = originsIn text.toList) ∧
    (∀ text o, originAt? text = some o ↔ OriginStarts text o) ∧
    ∀ (t : Ty) (acc : List Origin), t.collectOrigins acc = acc ++ t.origins :=
  ⟨fun _ _ => origins_of_parseTy, fun _ _ => originAt?_eq_some_iff,
    fun t acc => t.collectOrigins_eq_append acc⟩

/-- References and structs in turn, with origins that are used twice. -/
def tangledTy : Ty :=
  .ref .mutable "'a" (.struct "S"
    [.origin "'b", .ty (.ref .shared "'a" (.struct "T" [.origin "'9_x", .ty .unit])),
      .ty (.struct "mut" [.origin "'b"])])

theorem origins_as_written_tangledTy :
    let text := "&'a mut S<'b, &'a T<'9_x, ()>, mut<'b>>"
    parseTy text = .ok tangledTy ∧
      originsIn text.toList = ["'a", "'b", "'a", "'9_x", "'b"] := by
  have hparse : parseTy tangledTy.render = .ok tangledTy :=
    parseTy_eq_ok_iff.mpr (writes_render (by decide))
  obtain ⟨hwritten, _, _⟩ := origins_as_written
  exact ⟨hparse, (hwritten _ _ hparse).symm⟩

end OriginFacts.Surface
