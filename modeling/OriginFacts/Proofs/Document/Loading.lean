import OriginFacts.Proofs.Document.Schema
import OriginFacts.Proofs.Lists
import OriginFacts.Proofs.Text.RawString

/-!
Loading against the rules for documents: each reader accepts exactly the values that describe
something, and gives back what they describe.
-/

namespace OriginFacts

theorem Json.get?_object (members : Json.Members) (key : String) :
    (Json.object members).get? key = members.get? key := rfl

namespace Document

open Surface (Token Writes TyForm PlaceForm OriginForm SlotForm)

/-! ## Values -/

theorem expectObject_eq_ok_iff {path : Path} {v : Json} {members : Json.Members} :
    expectObject path v = .ok members ↔ v = .object members := by
  cases v <;> simp [expectObject]

theorem expectList_eq_ok_iff {path : Path} {v : Json} {items : List Json} :
    expectList path v = .ok items ↔ v = .list items := by
  cases v <;> simp [expectList]

theorem expectString_eq_ok_iff {path : Path} {v : Json} {s : RawString} :
    expectString path v = .ok s ↔ v = .str s := by
  cases v <;> simp [expectString]

theorem nameOf_eq_ok_iff {path : Path} {s : RawString} {name : String} :
    nameOf path s = .ok name ↔ s = name := by
  cases s <;> simp [nameOf]

theorem expectName_eq_ok_iff {path : Path} {v : Json} {name : String} :
    expectName path v = .ok name ↔ v = .str name := by
  simp only [expectName, bind_eq_ok_iff, expectString_eq_ok_iff, nameOf_eq_ok_iff]
  simp

theorem encoded_eq_ok_iff {s : RawString} {text : String} : encoded s = .ok text ↔ s = text := by
  rw [encoded, mapError_eq_ok_iff, RawString.toText_eq_ok_iff]

theorem atPath_eq_ok_iff {α : Type} {path : Path} {result : Except Cause α} {a : α} :
    atPath path result = .ok a ↔ result = .ok a :=
  mapError_eq_ok_iff

theorem kind_eq_object_iff {v : Json} : v.kind = .object ↔ ∃ members, v = .object members := by
  cases v <;> simp [Json.kind]

theorem required_eq_str_iff {members : Json.Members} {key : String} {s : RawString} :
    required members key = .str s ↔ (Json.object members).get? key = some (.str s) := by
  rw [required, Json.get?_object]
  cases members.get? key <;> simp

theorem optional_eq_memberOr (members : Json.Members) (key : String) (default : Json) :
    optional members key default = memberOr (.object members) key default := rfl

section

variable {α : Type}

theorem readForm_eq_ok_iff {parse : String → Except Surface.Error α} {kind : Surface.Form}
    {form : List Token → α → Prop} (hparses : Surface.Parses parse kind form) {path : Path}
    {v : Json} {a : α} : readForm parse path v = .ok a ↔ TextOf form v a := by
  unfold TextOf
  cases v with
  | str s =>
      cases s with
      | text text =>
          simp only [readForm, atPath_eq_ok_iff, mapError_eq_ok_iff, Json.str.injEq,
            RawString.text.injEq, exists_eq_left', ← hparses.accepts]
      | lone => simp [readForm]
  | _ => simp [readForm]

theorem textOf_required_iff {form : List Token → α → Prop} {members : Json.Members} {key : String}
    {a : α} :
    TextOf form (required members key) a ↔ MemberOf key (TextOf form) (.object members) a := by
  show TextOf form ((members.get? key).getD .null) a ↔ ∃ w, members.get? key = some w ∧ _
  cases members.get? key with
  | none => simp [TextOf]
  | some w => simp

theorem readItems_eq_ok_iff {read : Path → Json → Except LoadError α} {item : Json → α → Prop}
    (hread : ∀ path v a, read path v = .ok a ↔ item v a) {path : Path} {items : List Json}
    {as : List α} : readItems read path items = .ok as ↔ List.Forall₂ item items as := by
  unfold readItems
  rw [mapM_eq_ok_iff_forall₂]
  simp only [hread]
  conv => rhs; rw [← List.zipIdx_map_fst 0 items, List.forall₂_map_left_iff]

end

theorem readTy_eq_ok_iff {path : Path} {v : Json} {t : Ty} :
    readTy path v = .ok t ↔ TextOf TyForm v t :=
  readForm_eq_ok_iff (Surface.parses_of_reads Surface.readTy_whole_iff TyForm.stray_notMem)

theorem readPlace_eq_ok_iff {path : Path} {v : Json} {place : Place} :
    readPlace path v = .ok place ↔ TextOf PlaceForm v place :=
  readForm_eq_ok_iff (Surface.parses_of_reads Surface.readPlace_whole_iff PlaceForm.stray_notMem)

theorem readOrigin_eq_ok_iff {path : Path} {v : Json} {o : Origin} :
    readOrigin path v = .ok o ↔ TextOf OriginForm v o :=
  readForm_eq_ok_iff (Surface.parses_of_reads Surface.readOrigin_whole_iff OriginForm.stray_notMem)

theorem readSlot_eq_ok_iff {path : Path} {v : Json} {slot : GenericSlot} :
    readSlot path v = .ok slot ↔ TextOf SlotForm v slot :=
  readForm_eq_ok_iff (Surface.parses_of_reads Surface.readSlot_whole_iff SlotForm.stray_notMem)

/-! ## Declarations -/

theorem readBindings_eq_ok_iff {path : Path} {members : Json.Members} {bs : List Binding} :
    readBindings path members = .ok bs ↔ List.Forall₂ BindingOf members bs := by
  unfold readBindings
  rw [mapM_eq_ok_iff_forall₂]
  refine iff_of_eq (congrArg (fun R => List.Forall₂ R members bs) ?_)
  funext member b
  simp only [bind_eq_ok_iff, pure_eq_ok_iff, nameOf_eq_ok_iff, readTy_eq_ok_iff, BindingOf]
  obtain ⟨name, ty⟩ := b
  simp

theorem readStruct_eq_ok_iff {path : Path} {v : Json} {decl : StructDecl} :
    readStruct path v = .ok decl ↔ StructOf v decl := by
  have hslots : ∀ path items slots, readItems readSlot path items = .ok slots ↔
      List.Forall₂ (TextOf SlotForm) items slots := by
    intro path items slots
    refine readItems_eq_ok_iff ?_
    intro path v slot
    exact readSlot_eq_ok_iff
  simp only [readStruct, bind_eq_ok_iff, expectObject_eq_ok_iff, expectName_eq_ok_iff,
    expectList_eq_ok_iff, hslots, readBindings_eq_ok_iff, pure_eq_ok_iff, required_eq_str_iff,
    optional_eq_memberOr]
  constructor
  · rintro ⟨members, rfl, name, hname, generics, hgenerics, fields, hfields, slots, hslots,
      bindings, hbindings, rfl⟩
    exact ⟨rfl, hname, ⟨generics, hgenerics, hslots⟩, ⟨fields, hfields, hbindings⟩⟩
  · rintro ⟨hobject, hname, ⟨generics, hgenerics, hslots⟩, ⟨fields, hfields, hbindings⟩⟩
    obtain ⟨members, rfl⟩ := kind_eq_object_iff.mp hobject
    exact ⟨members, rfl, decl.name, hname, generics, hgenerics, fields, hfields, decl.generics,
      hslots, decl.fields, hbindings, rfl⟩

/-! ## Expressions -/

theorem ExprKind.mem_all (kind : ExprKind) : kind ∈ all := by
  cases kind with
  | borrow m => cases m <;> simp [all]
  | _ => simp [all]

theorem kindsOf_eq_singleton_iff {members : Json.Members} {kind : ExprKind} :
    kindsOf members = [kind] ↔ OnlyKind (.object members) kind := by
  constructor
  · intro h other
    have hmem : other ∈ kindsOf members ↔ other = kind := by rw [h, List.mem_singleton]
    rwa [kindsOf, List.mem_filter, and_iff_right other.mem_all] at hmem
  · intro h
    have hfilter : kindsOf members = ExprKind.all.filter (decide <| · = kind) := by
      refine List.filter_congr fun other _ => ?_
      rw [Bool.eq_iff_iff, decide_eq_true_iff]
      exact h other
    rw [hfilter]
    cases kind with
    | borrow m => cases m <;> rfl
    | _ => rfl

theorem readAccess_eq_ok_iff {path : Path} {members : Json.Members} {key : String}
    {kind : AccessKind} {e : Expr} :
    readAccess path members key kind = .ok e ↔
      ∃ place, MemberOf key (TextOf PlaceForm) (.object members) place ∧
        .access kind place = e := by
  simp only [readAccess, bind_eq_ok_iff, pure_eq_ok_iff, readPlace_eq_ok_iff, textOf_required_iff]

theorem memberOr_cons_self (key : String) (value default : Json) (members : Json.Members) :
    memberOr (.object ((.text key, value) :: members)) key default = value := by
  simp [memberOr, Json.get?, Json.Members.get?]

theorem memberOr_cons_of_ne {key : String} {other : RawString} (h : other ≠ key)
    (value default : Json) (members : Json.Members) :
    memberOr (.object ((other, value) :: members)) key default =
      memberOr (.object members) key default := by
  have hne : (RawString.text key == other) = false := by simpa using h.symm
  simp only [memberOr, Json.get?, Json.Members.get?, List.lookup_cons, hne]

/-- The arguments are looked up like any other member. -/
theorem readArgsMember_of_list {path : Path} {members : Json.Members} {items : List Json}
    (h : memberOr (.object members) "args" (.list []) = .list items) :
    readArgsMember path members = readArgs path 0 items := by
  induction members with
  | nil =>
      cases h
      rfl
  | cons member members ih =>
      obtain ⟨key, value⟩ := member
      by_cases hkey : key = .text "args"
      · subst hkey
        rw [memberOr_cons_self] at h
        subst h
        rw [readArgsMember, if_pos rfl]
      · rw [memberOr_cons_of_ne hkey] at h
        unfold readArgsMember
        rw [if_neg hkey]
        exact ih h

mutual

theorem readExpr_sound : (v : Json) → {path : Path} → {e : Expr} → readExpr path v = .ok e →
    ExprOf v e
  | .object members, path, e, h => by
      unfold readExpr at h
      split at h
      · next m hkinds =>
        have honly := kindsOf_eq_singleton_iff.mp hkinds
        split at h
        · next origin horigin =>
          obtain ⟨o, ho, h⟩ := bind_eq_ok_iff.mp h
          obtain ⟨place, hplace, rfl⟩ := readAccess_eq_ok_iff.mp h
          exact .borrow honly ⟨origin, horigin, readOrigin_eq_ok_iff.mp ho⟩ hplace
        · cases h
      · next hkinds =>
        obtain ⟨place, hplace, rfl⟩ := readAccess_eq_ok_iff.mp h
        exact .copy (kindsOf_eq_singleton_iff.mp hkinds) hplace
      · next hkinds =>
        obtain ⟨place, hplace, rfl⟩ := readAccess_eq_ok_iff.mp h
        exact .move (kindsOf_eq_singleton_iff.mp hkinds) hplace
      · next hkinds =>
        obtain ⟨callee, hcallee, h⟩ := bind_eq_ok_iff.mp h
        obtain ⟨args, hargs, h⟩ := bind_eq_ok_iff.mp h
        cases pure_eq_ok_iff.mp h
        obtain ⟨items, hitems, hexprs⟩ := readArgsMember_sound members hargs
        exact .call (kindsOf_eq_singleton_iff.mp hkinds)
          (required_eq_str_iff.mp (expectName_eq_ok_iff.mp hcallee)) hitems hexprs
      · next hkinds =>
        split at h
        · next n hn =>
          cases h
          exact .number (kindsOf_eq_singleton_iff.mp hkinds) hn
        · cases h
      · next hkinds =>
        cases h
        exact .unit (kindsOf_eq_singleton_iff.mp hkinds)
      · cases h
  | .null, _, _, h => nomatch h
  | .bool _, _, _, h => nomatch h
  | .int _, _, _, h => nomatch h
  | .float _, _, _, h => nomatch h
  | .str _, _, _, h => nomatch h
  | .list _, _, _, h => nomatch h

theorem readArgsMember_sound : (members : List (RawString × Json)) → {path : Path} →
    {es : List Expr} → readArgsMember path members = .ok es →
      ∃ items, memberOr (.object members) "args" (.list []) = .list items ∧ ExprsOf items es
  | [], _, _, h => by
      cases h
      exact ⟨[], rfl, .nil⟩
  | (key, value) :: members, path, es, h => by
      unfold readArgsMember at h
      split at h
      · next hkey =>
        subst hkey
        split at h
        · next items => exact ⟨items, memberOr_cons_self .., readArgs_sound items h⟩
        · cases h
      · next hkey =>
        rw [memberOr_cons_of_ne hkey]
        exact readArgsMember_sound members h

theorem readArgs_sound : (items : List Json) → {path : Path} → {i : Nat} → {es : List Expr} →
    readArgs path i items = .ok es → ExprsOf items es
  | [], _, _, _, h => by
      cases h
      exact .nil
  | item :: items, path, i, es, h => by
      unfold readArgs at h
      obtain ⟨e, he, h⟩ := bind_eq_ok_iff.mp h
      obtain ⟨rest, hrest, h⟩ := bind_eq_ok_iff.mp h
      cases pure_eq_ok_iff.mp h
      exact .cons (readExpr_sound item he) (readArgs_sound items hrest)

end

theorem OnlyKind.exists_members {v : Json} {kind : ExprKind} (h : OnlyKind v kind) :
    ∃ members, v = .object members ∧ kindsOf members = [kind] := by
  have hkey := (h kind).mpr rfl
  cases v with
  | object members => exact ⟨members, rfl, kindsOf_eq_singleton_iff.mpr h⟩
  | _ => cases hkey

mutual

theorem readExpr_complete {v : Json} {e : Expr} (h : ExprOf v e) (path : Path) :
    readExpr path v = .ok e := by
  match h with
  | .borrow honly ⟨origin, horigin, ho⟩ hplace =>
      obtain ⟨members, rfl, hkinds⟩ := honly.exists_members
      unfold readExpr
      rw [hkinds]
      dsimp only
      rw [Json.get?_object] at horigin
      rw [horigin]
      exact bind_eq_ok_iff.mpr ⟨_, readOrigin_eq_ok_iff.mpr ho,
        readAccess_eq_ok_iff.mpr ⟨_, hplace, rfl⟩⟩
  | .copy honly hplace =>
      obtain ⟨members, rfl, hkinds⟩ := honly.exists_members
      unfold readExpr
      rw [hkinds]
      exact readAccess_eq_ok_iff.mpr ⟨_, hplace, rfl⟩
  | .move honly hplace =>
      obtain ⟨members, rfl, hkinds⟩ := honly.exists_members
      unfold readExpr
      rw [hkinds]
      exact readAccess_eq_ok_iff.mpr ⟨_, hplace, rfl⟩
  | .call honly hcallee hitems hargs =>
      obtain ⟨members, rfl, hkinds⟩ := honly.exists_members
      unfold readExpr
      rw [hkinds]
      dsimp only
      rw [required_eq_str_iff.mpr hcallee, readArgsMember_of_list hitems, readArgs_complete hargs]
      rfl
  | .number honly hn =>
      obtain ⟨members, rfl, hkinds⟩ := honly.exists_members
      unfold readExpr
      rw [hkinds]
      dsimp only
      rw [Json.get?_object] at hn
      rw [hn]
  | .unit honly =>
      obtain ⟨members, rfl, hkinds⟩ := honly.exists_members
      unfold readExpr
      rw [hkinds]

theorem readArgs_complete {vs : List Json} {es : List Expr} (h : ExprsOf vs es) (path : Path)
    (i : Nat) : readArgs path i vs = .ok es := by
  match h with
  | .nil => rfl
  | .cons he hes =>
      rw [readArgs, readExpr_complete he, readArgs_complete hes]
      rfl

end

theorem readExpr_eq_ok_iff {path : Path} {v : Json} {e : Expr} :
    readExpr path v = .ok e ↔ ExprOf v e :=
  ⟨readExpr_sound v, fun h => readExpr_complete h path⟩

/-! ## Statements -/

theorem readSpan_eq_ok_iff {source : ByteArray} {cursor : Nat} {path : Path}
    {members : Json.Members} {span : Span} :
    readSpan source cursor path members = .ok span ↔
      SpanOf source cursor (.object members) span := by
  unfold readSpan
  constructor
  · intro h
    split at h
    · next offsets hoffsets =>
      obtain ⟨items, hitems, h⟩ := bind_eq_ok_iff.mp h
      split at h
      · next start stop =>
        obtain ⟨rfl, text, hcovers⟩ := checkOffsets_eq_ok_iff.mp (atPath_eq_ok_iff.mp h)
        obtain rfl := expectList_eq_ok_iff.mp hitems
        exact .offsets hoffsets text hcovers
      · cases h
    · next value hspan hvalue =>
      obtain ⟨s, hs, h⟩ := bind_eq_ok_iff.mp h
      obtain ⟨text, htext, h⟩ := bind_eq_ok_iff.mp h
      obtain rfl := expectString_eq_ok_iff.mp hs
      obtain rfl := encoded_eq_ok_iff.mp htext
      obtain ⟨hne, hnext⟩ := locateText_eq_ok_iff.mp (atPath_eq_ok_iff.mp h)
      exact .text hspan text hvalue hne hnext
    · cases h
  · intro h
    cases h with
    | offsets given text covers =>
        rw [Json.get?_object] at given
        rw [given]
        exact atPath_eq_ok_iff.mpr (checkOffsets_eq_ok_iff.mpr ⟨rfl, text, covers⟩)
    | text absent text given nonempty next =>
        rw [Json.get?_object] at absent given
        rw [absent, given]
        exact atPath_eq_ok_iff.mpr (locateText_eq_ok_iff.mpr ⟨nonempty, next⟩)

theorem readStatement_eq_ok_iff {source : ByteArray} {cursor : Nat} {path : Path} {v : Json}
    {s : Statement} :
    readStatement source cursor path v = .ok s ↔
      StatementOf v s ∧ SpanOf source cursor v s.span := by
  constructor
  · intro h
    obtain ⟨members, hmembers, hbody⟩ := bind_eq_ok_iff.mp h
    obtain rfl := expectObject_eq_ok_iff.mp hmembers
    split at hbody
    · next value hvalue =>
      obtain ⟨e, he, hbody⟩ := bind_eq_ok_iff.mp hbody
      obtain ⟨span, hspan, hbody⟩ := bind_eq_ok_iff.mp hbody
      have hexpr : MemberOf "expr" ExprOf (.object members) e :=
        ⟨value, hvalue, readExpr_eq_ok_iff.mp he⟩
      have hspan := readSpan_eq_ok_iff.mp hspan
      split at hbody
      · next target htarget =>
        obtain ⟨place, hplace, hbody⟩ := bind_eq_ok_iff.mp hbody
        cases pure_eq_ok_iff.mp hbody
        refine ⟨⟨hexpr, ?_⟩, hspan⟩
        rw [Json.get?_object, htarget]
        exact .some (readPlace_eq_ok_iff.mp hplace)
      · next htarget =>
        cases pure_eq_ok_iff.mp hbody
        refine ⟨⟨hexpr, ?_⟩, hspan⟩
        rw [Json.get?_object, htarget]
        exact .none
    · cases hbody
  · rintro ⟨⟨⟨value, hvalue, hexpr⟩, htarget⟩, hspan⟩
    cases v with
    | object members =>
        refine bind_eq_ok_iff.mpr ⟨members, rfl, ?_⟩
        rw [Json.get?_object] at hvalue
        rw [hvalue]
        refine bind_eq_ok_iff.mpr ⟨s.expr, readExpr_eq_ok_iff.mpr hexpr, ?_⟩
        refine bind_eq_ok_iff.mpr ⟨s.span, readSpan_eq_ok_iff.mpr hspan, ?_⟩
        obtain ⟨target, e, span⟩ := s
        simp only [Json.get?_object] at htarget
        generalize Json.Members.get? members "assign" = assign at htarget
        cases htarget with
        | some hplace =>
            exact bind_eq_ok_iff.mpr ⟨_, readPlace_eq_ok_iff.mpr hplace, rfl⟩
        | none => rfl
    | _ => cases hvalue

/-- The end of the last statement, or the cursor if there is none. -/
def endOf (cursor : Nat) (ss : List Statement) : Nat :=
  ss.foldl (fun _ s => s.span.stop.toNat) cursor

theorem endOf_append (cursor : Nat) (ss ts : List Statement) :
    endOf cursor (ss ++ ts) = endOf (endOf cursor ss) ts :=
  List.foldl_append

theorem Placed.length_eq {source : ByteArray} {cursor : Nat} {items : List Json}
    {ss : List Statement} (h : Placed source cursor items ss) : items.length = ss.length := by
  induction h with
  | nil => rfl
  | cons _ _ ih => exact congrArg (· + 1) ih

theorem Placed.append_iff {source : ByteArray} {cursor : Nat} {vs ws : List Json}
    {ss ts : List Statement} (hlength : vs.length = ss.length) :
    Placed source cursor (vs ++ ws) (ss ++ ts) ↔
      Placed source cursor vs ss ∧ Placed source (endOf cursor ss) ws ts := by
  induction ss generalizing cursor vs with
  | nil =>
      obtain rfl := List.length_eq_zero_iff.mp hlength
      exact (and_iff_right .nil).symm
  | cons s ss ih =>
      cases vs with
      | nil => cases hlength
      | cons v vs =>
          have htail : Placed source s.span.stop.toNat (vs ++ ws) (ss ++ ts) ↔ _ :=
            ih (Nat.succ.inj hlength)
          constructor
          · rintro (_ | ⟨hs, hrest⟩)
            obtain ⟨hss, hts⟩ := htail.mp hrest
            exact ⟨.cons hs hss, hts⟩
          · rintro ⟨_ | ⟨hs, hss⟩, hts⟩
            exact .cons hs (htail.mpr ⟨hss, hts⟩)

theorem readStatements_eq_ok_iff {source : ByteArray} {path : Path} {i cursor cursor' : Nat}
    {vs : List Json} {ss : List Statement} :
    readStatements source path i cursor vs = .ok (ss, cursor') ↔
      List.Forall₂ StatementOf vs ss ∧ Placed source cursor vs ss ∧ endOf cursor ss = cursor' := by
  induction vs generalizing i cursor cursor' ss with
  | nil =>
      simp only [readStatements, Except.ok.injEq, Prod.mk.injEq]
      constructor
      · rintro ⟨rfl, rfl⟩
        exact ⟨.nil, .nil, rfl⟩
      · rintro ⟨_ | _, _, rfl⟩
        exact ⟨rfl, rfl⟩
  | cons v vs ih =>
      simp only [readStatements, bind_eq_ok_iff, readStatement_eq_ok_iff, Prod.exists, ih,
        pure_eq_ok_iff, Prod.mk.injEq]
      constructor
      · rintro ⟨s, ⟨hs, hspan⟩, rest, _, ⟨hrest, hplaced, rfl⟩, rfl, rfl⟩
        exact ⟨.cons hs hrest, .cons hspan hplaced, rfl⟩
      · rintro ⟨_ | ⟨hs, hrest⟩, _ | ⟨hspan, hplaced⟩, rfl⟩
        exact ⟨_, ⟨hs, hspan⟩, _, _, ⟨hrest, hplaced, rfl⟩, rfl, rfl⟩

/-! ## Blocks -/

theorem itemsUnder_of_memberOr {v : Json} {key : String} {items : List Json}
    (h : memberOr v key (.list []) = .list items) : itemsUnder key v = items := by
  unfold memberOr at h
  unfold itemsUnder
  cases hkey : v.get? key with
  | none =>
      rw [hkey] at h
      cases h
      rfl
  | some w =>
      rw [hkey] at h
      cases h
      rfl

theorem readBlock_eq_ok_iff {source : ByteArray} {cursor cursor' : Nat} {path : Path} {v : Json}
    {b : Block} :
    readBlock source cursor path v = .ok (b, cursor') ↔
      BlockOf v b ∧ Placed source cursor (itemsUnder "statements" v) b.statements ∧
        endOf cursor b.statements = cursor' := by
  have hnames : ∀ path items names, readItems expectName path items = .ok names ↔
      List.Forall₂ (fun w (name : String) => w = .str name) items names := by
    intro path items names
    refine readItems_eq_ok_iff ?_
    intro path v name
    exact expectName_eq_ok_iff
  simp only [readBlock, bind_eq_ok_iff, expectObject_eq_ok_iff, expectName_eq_ok_iff,
    expectList_eq_ok_iff, hnames, Prod.exists, readStatements_eq_ok_iff, pure_eq_ok_iff,
    required_eq_str_iff, optional_eq_memberOr, Prod.mk.injEq]
  constructor
  · rintro ⟨members, rfl, name, hname, items, hitems, successors, hsuccessors, names, hnames, ss,
      _, ⟨hss, hplaced, rfl⟩, rfl, rfl⟩
    rw [itemsUnder_of_memberOr hitems]
    exact ⟨⟨rfl, hname, ⟨items, hitems, hss⟩, ⟨successors, hsuccessors, hnames⟩⟩, hplaced, rfl⟩
  · rintro ⟨⟨hobject, hname, ⟨items, hitems, hss⟩, ⟨successors, hsuccessors, hnames⟩⟩, hplaced,
      rfl⟩
    obtain ⟨members, rfl⟩ := kind_eq_object_iff.mp hobject
    rw [itemsUnder_of_memberOr hitems] at hplaced
    exact ⟨members, rfl, b.name, hname, items, hitems, successors, hsuccessors, b.successors,
      hnames, b.statements, _, ⟨hss, hplaced, rfl⟩, rfl, rfl⟩

theorem BlockOf.length_statements {v : Json} {b : Block} (h : BlockOf v b) :
    (itemsUnder "statements" v).length = b.statements.length := by
  obtain ⟨items, hitems, hss⟩ := h.statements
  rw [itemsUnder_of_memberOr hitems]
  exact hss.length_eq

theorem readBlocks_eq_ok_iff {source : ByteArray} {path : Path} {i cursor : Nat} {vs : List Json}
    {bs : List Block} :
    readBlocks source path i cursor vs = .ok bs ↔
      List.Forall₂ BlockOf vs bs ∧
        Placed source cursor (vs.flatMap (itemsUnder "statements"))
          (bs.flatMap (·.statements)) := by
  induction vs generalizing i cursor bs with
  | nil =>
      simp only [readBlocks, Except.ok.injEq]
      constructor
      · rintro rfl
        exact ⟨.nil, .nil⟩
      · rintro ⟨_ | _, _⟩
        rfl
  | cons v vs ih =>
      simp only [readBlocks, bind_eq_ok_iff, Prod.exists, readBlock_eq_ok_iff, ih, pure_eq_ok_iff,
        List.flatMap_cons]
      constructor
      · rintro ⟨b, _, ⟨hb, hplaced, rfl⟩, rest, ⟨hrest, hrestPlaced⟩, rfl⟩
        exact ⟨.cons hb hrest,
          (Placed.append_iff hb.length_statements).mpr ⟨hplaced, hrestPlaced⟩⟩
      · rintro ⟨_ | ⟨hb, hrest⟩, hplaced⟩
        obtain ⟨hplaced, hrestPlaced⟩ := (Placed.append_iff hb.length_statements).mp hplaced
        exact ⟨_, _, ⟨hb, hplaced, rfl⟩, _, ⟨hrest, hrestPlaced⟩, rfl⟩

/-! ## Documents -/

/-- Loading once the source is known. -/
def readProgram (members : Json.Members) (source : RawString) :
    Except LoadError (Program × String) := do
  let root : Path := []
  let vars ← expectObject (root.key "variables") (optional members "variables" (.object []))
  let structs ← expectList (root.key "structs") (optional members "structs" (.list []))
  let blocks ← expectList (root.key "blocks") (optional members "blocks" (.list []))
  let source ← encoded source
  let vars ← readBindings (root.key "variables") vars
  let structs ← readItems readStruct (root.key "structs") structs
  let blocks ← readBlocks source.toUTF8 (root.key "blocks") 0 0 blocks
  return (⟨vars, structs, blocks⟩, source)

theorem load_eq_ok_iff {doc : Json} {override : Option RawString} {result : Program × String} :
    load doc override = .ok result ↔
      ∃ members source, doc = .object members ∧
        (override = some source ∨
          override = none ∧ optional members "source" (.str "") = .str source) ∧
        readProgram members source = .ok result := by
  constructor
  · intro h
    obtain ⟨members, hmembers, hbody⟩ := bind_eq_ok_iff.mp h
    obtain rfl := expectObject_eq_ok_iff.mp hmembers
    cases override with
    | some source => exact ⟨members, source, rfl, Or.inl rfl, hbody⟩
    | none =>
        obtain ⟨source, hsource, hbody⟩ := bind_eq_ok_iff.mp hbody
        exact ⟨members, source, rfl, Or.inr ⟨rfl, expectString_eq_ok_iff.mp hsource⟩, hbody⟩
  · rintro ⟨members, source, rfl, rfl | ⟨rfl, hsource⟩, hbody⟩
    · exact hbody
    · exact bind_eq_ok_iff.mpr ⟨members, rfl,
        bind_eq_ok_iff.mpr ⟨source, expectString_eq_ok_iff.mpr hsource, hbody⟩⟩

theorem readProgram_eq_ok_iff {members : Json.Members} {s : RawString} {source : String}
    {p : Program} :
    readProgram members s = .ok (p, source) ↔
      ProgramOf (.object members) source p ∧ s = source := by
  have hstructs : ∀ path items decls, readItems readStruct path items = .ok decls ↔
      List.Forall₂ StructOf items decls := by
    intro path items decls
    refine readItems_eq_ok_iff ?_
    intro path v decl
    exact readStruct_eq_ok_iff
  simp only [readProgram, bind_eq_ok_iff, expectObject_eq_ok_iff, expectList_eq_ok_iff,
    encoded_eq_ok_iff, readBindings_eq_ok_iff, hstructs, readBlocks_eq_ok_iff, pure_eq_ok_iff,
    optional_eq_memberOr, Prod.mk.injEq]
  constructor
  · rintro ⟨entries, hentries, decls, hdecls, items, hitems, text, rfl, vars, hvars, structs,
      hstructs, blocks, ⟨hblocks, hplaced⟩, rfl, rfl⟩
    refine ⟨⟨⟨entries, hentries, hvars⟩, ⟨decls, hdecls, hstructs⟩, ⟨items, hitems, hblocks⟩, ?_⟩,
      rfl⟩
    rw [statementsOf, itemsUnder_of_memberOr hitems]
    exact hplaced
  · rintro ⟨⟨⟨entries, hentries, hvars⟩, ⟨decls, hdecls, hstructs⟩, ⟨items, hitems, hblocks⟩,
      hplaced⟩, rfl⟩
    rw [statementsOf, itemsUnder_of_memberOr hitems] at hplaced
    exact ⟨entries, hentries, decls, hdecls, items, hitems, source, rfl, p.vars, hvars, p.structs,
      hstructs, p.blocks, ⟨hblocks, hplaced⟩, rfl, rfl⟩

/-- Loading gives a program and a source exactly if the document describes them. -/
theorem load_eq_ok_iff_describes {doc : Json} {override : Option RawString} {p : Program}
    {source : String} : load doc override = .ok (p, source) ↔ Describes doc override p source := by
  simp only [load_eq_ok_iff, readProgram_eq_ok_iff]
  constructor
  · rintro ⟨members, _, rfl, hsource, hprogram, rfl⟩
    exact ⟨rfl, hsource, hprogram⟩
  · rintro ⟨hobject, hsource, hprogram⟩
    obtain ⟨members, rfl⟩ := kind_eq_object_iff.mp hobject
    exact ⟨members, source, rfl, hsource, hprogram, rfl⟩

end Document

end OriginFacts
