import OriginFacts.Proofs.Document.Loading

/-!
Documents whose names are texts. Types, places, origins and slots count as names here, since they
are made of them; a source, the text of a statement, and what no rule is about may be any string.
What becomes of such a document is settled: it is loaded, or it is malformed, or bytes were asked of
a string that has none.
-/

namespace OriginFacts

def RawString.isText : RawString → Bool
  | .text _ => true
  | .lone _ => false

namespace Json

mutual

/-- All strings of the value are texts, its keys as well. -/
def allTexts : Json → Bool
  | .str s => s.isText
  | .list items => itemsAllTexts items
  | .object members => membersAllTexts members
  | _ => true

def itemsAllTexts : List Json → Bool
  | [] => true
  | v :: vs => v.allTexts && itemsAllTexts vs

def membersAllTexts : List (RawString × Json) → Bool
  | [] => true
  | (key, v) :: members => key.isText && v.allTexts && membersAllTexts members

end

theorem itemsAllTexts_eq (items : List Json) : itemsAllTexts items = items.all allTexts := by
  induction items with
  | nil => rfl
  | cons v vs ih => rw [itemsAllTexts, ih, List.all_cons]

theorem membersAllTexts_eq (members : Json.Members) :
    membersAllTexts members = members.all fun member => member.1.isText && member.2.allTexts := by
  induction members with
  | nil => rfl
  | cons member members ih => rw [membersAllTexts, ih, List.all_cons]

end Json

namespace Document

/-- What is under the key, if anything is, has texts only. -/
def textsUnder (key : String) (v : Json) : Bool :=
  (v.get? key).all Json.allTexts

def statementNames (v : Json) : Bool :=
  textsUnder "expr" v && textsUnder "assign" v

def blockNames (v : Json) : Bool :=
  textsUnder "name" v && textsUnder "successors" v &&
    (itemsUnder "statements" v).all statementNames

def namesAreTexts (doc : Json) : Bool :=
  textsUnder "variables" doc && textsUnder "structs" doc && (itemsUnder "blocks" doc).all blockNames

section

variable {v w : Json} {key : String}

theorem allTexts_of_list {items : List Json} (h : (Json.list items).allTexts = true) :
    ∀ v ∈ items, v.allTexts = true := by
  rw [Json.allTexts, Json.itemsAllTexts_eq] at h
  exact List.all_eq_true.mp h

theorem allTexts_of_object {members : Json.Members} (h : (Json.object members).allTexts = true) :
    ∀ member ∈ members, member.1.isText = true ∧ member.2.allTexts = true := by
  rw [Json.allTexts, Json.membersAllTexts_eq] at h
  intro member hmember
  exact (Bool.and_eq_true _ _).mp (List.all_eq_true.mp h member hmember)

theorem textsUnder_of_allTexts (h : v.allTexts = true) (key : String) :
    textsUnder key v = true := by
  unfold textsUnder
  cases hkey : v.get? key with
  | none => rfl
  | some w =>
      cases v with
      | object members =>
          obtain ⟨front, back, rfl, _⟩ := List.lookup_eq_some_iff.mp hkey
          exact (allTexts_of_object h (.text key, w) (by simp)).2
      | _ => cases hkey

theorem allTexts_of_get? (h : textsUnder key v = true) (hkey : v.get? key = some w) :
    w.allTexts = true := by
  rw [textsUnder, hkey] at h
  exact h

theorem allTexts_memberOr (h : textsUnder key v = true) (default : Json)
    (hdefault : default.allTexts = true) : (memberOr v key default).allTexts = true := by
  unfold memberOr
  cases hkey : v.get? key with
  | none => exact hdefault
  | some w => exact allTexts_of_get? h hkey

/-- The items of the list under a key, once it is known to be one. -/
theorem allTexts_of_expectList {members : Json.Members} {path : Path} {items : List Json}
    (h : textsUnder key (.object members) = true)
    (hlist : expectList path (optional members key (.list [])) = .ok items) :
    ∀ v ∈ items, v.allTexts = true := by
  have htexts := allTexts_memberOr h (.list []) rfl
  rw [← optional_eq_memberOr, expectList_eq_ok_iff.mp hlist] at htexts
  exact allTexts_of_list htexts

theorem allTexts_of_expectObject {members inner : Json.Members} {path : Path}
    (h : textsUnder key (.object members) = true)
    (hobject : expectObject path (optional members key (.object [])) = .ok inner) :
    (Json.object inner).allTexts = true := by
  have htexts := allTexts_memberOr h (.object []) rfl
  rw [← optional_eq_memberOr, expectObject_eq_ok_iff.mp hobject] at htexts
  exact htexts

end

/-! ## Outcomes that are settled -/

/-- The outcome is known: no name was in the way that is no text. -/
def Settled {α : Type} (result : Except LoadError α) : Prop :=
  ∀ path, result ≠ .error (.foreign path)

namespace Settled

variable {α β : Type}

theorem ok (a : α) : Settled (.ok a) := by
  intro path h
  cases h

theorem malformed (e : Error) : Settled (.error (.malformed e) : Except LoadError α) := by
  intro path h
  cases h

theorem bind {result : Except LoadError α} {k : α → Except LoadError β} (h : Settled result)
    (hk : ∀ a, result = .ok a → Settled (k a)) : Settled (result >>= k) := by
  intro path hforeign
  rcases bind_eq_error_iff.mp hforeign with hforeign | ⟨a, ha, hforeign⟩
  · exact h path hforeign
  · exact hk a ha path hforeign

theorem finish {result : Except LoadError α} (h : Settled result) (f : α → β) :
    Settled (result >>= fun a => pure (f a)) :=
  h.bind fun a _ => .ok (f a)

theorem mapM {read : α → Except LoadError β} {xs : List α} (h : ∀ x ∈ xs, Settled (read x)) :
    Settled (xs.mapM read) := by
  intro path hforeign
  obtain ⟨x, hx, hforeign⟩ := exists_of_mapM_eq_error hforeign
  exact h x hx path hforeign

theorem atPath (path : Path) (result : Except Cause α) : Settled (atPath path result) := by
  intro path hforeign
  obtain ⟨_, _, hcause⟩ := mapError_eq_error_iff.mp hforeign
  cases hcause

end Settled

/-! ## Values -/

section

variable {v : Json} (path : Path)

theorem settled_expectObject (v : Json) : Settled (expectObject path v) := by
  cases v with
  | object members => exact .ok members
  | _ => exact .malformed _

theorem settled_expectList (v : Json) : Settled (expectList path v) := by
  cases v with
  | list items => exact .ok items
  | _ => exact .malformed _

theorem settled_expectString (v : Json) : Settled (expectString path v) := by
  cases v with
  | str s => exact .ok s
  | _ => exact .malformed _

theorem settled_encoded (s : RawString) : Settled (encoded s) := by
  intro path hforeign
  obtain ⟨_, _, hfault⟩ := mapError_eq_error_iff.mp hforeign
  cases hfault

theorem settled_nameOf {s : RawString} (h : s.isText = true) : Settled (nameOf path s) := by
  cases s with
  | text name => exact .ok name
  | lone => cases h

theorem settled_expectName (h : v.allTexts = true) : Settled (expectName path v) := by
  refine (settled_expectString path v).bind ?_
  intro s hs
  obtain rfl := expectString_eq_ok_iff.mp hs
  exact settled_nameOf path h

theorem settled_readForm {α : Type} {parse : String → Except Surface.Error α}
    (h : v.allTexts = true) : Settled (readForm parse path v) := by
  cases v with
  | str s =>
      cases s with
      | text text => exact .atPath path _
      | lone => cases h
  | _ => exact .malformed _

theorem settled_readItems {α : Type} {read : Path → Json → Except LoadError α} {items : List Json}
    (h : ∀ v ∈ items, ∀ path, Settled (read path v)) : Settled (readItems read path items) := by
  refine .mapM ?_
  rintro ⟨item, i⟩ hitem
  exact h item (List.fst_mem_of_mem_zipIdx hitem) _

/-! ## Declarations -/

theorem settled_readBindings {members : Json.Members} (h : (Json.object members).allTexts = true) :
    Settled (readBindings path members) := by
  refine .mapM ?_
  rintro ⟨name, ty⟩ hmember
  obtain ⟨hname, hty⟩ := allTexts_of_object h _ hmember
  exact (settled_nameOf path hname).bind fun _ _ => (settled_readForm _ hty).finish _

theorem settled_readStruct (h : v.allTexts = true) : Settled (readStruct path v) := by
  refine (settled_expectObject path v).bind fun members hmembers => ?_
  obtain rfl := expectObject_eq_ok_iff.mp hmembers
  have hunder := textsUnder_of_allTexts h
  refine (settled_expectName _ (allTexts_memberOr (hunder "name") .null rfl)).bind fun name _ => ?_
  refine (settled_expectList _ _).bind fun generics hgenerics => ?_
  refine (settled_expectObject _ _).bind fun fields hfields => ?_
  have hslots := allTexts_of_expectList (hunder "generics") hgenerics
  have hbindings := allTexts_of_expectObject (hunder "fields") hfields
  refine .bind (settled_readItems _ ?_) fun slots _ => (settled_readBindings _ hbindings).finish _
  intro slot hslot path
  exact settled_readForm path (hslots slot hslot)

end

/-! ## Expressions -/

theorem settled_readAccess {path : Path} {members : Json.Members} {key : String}
    (h : (Json.object members).allTexts = true) (kind : AccessKind) :
    Settled (readAccess path members key kind) :=
  (settled_readForm _ (allTexts_memberOr (textsUnder_of_allTexts h key) .null rfl)).finish _

mutual

theorem settled_readExpr : (v : Json) → {path : Path} → v.allTexts = true →
    Settled (readExpr path v)
  | .object members, path, h => by
      have hunder := textsUnder_of_allTexts h
      unfold readExpr
      split
      · split
        · next origin horigin =>
          exact (settled_readForm _ (allTexts_of_get? (hunder "origin") horigin)).bind fun o _ =>
            settled_readAccess h _
        · exact .malformed _
      · exact settled_readAccess h _
      · exact settled_readAccess h _
      · have hcallee := allTexts_memberOr (hunder "call") .null rfl
        exact (settled_expectName _ hcallee).bind fun callee _ =>
          (settled_readArgsMember members h).finish _
      · split
        · exact .ok _
        · exact .malformed _
      · exact .ok _
      · exact .malformed _
  | .null, _, _ => .malformed _
  | .bool _, _, _ => .malformed _
  | .int _, _, _ => .malformed _
  | .float _, _, _ => .malformed _
  | .str _, _, _ => .malformed _
  | .list _, _, _ => .malformed _

theorem settled_readArgsMember : (members : List (RawString × Json)) → {path : Path} →
    (Json.object members).allTexts = true → Settled (readArgsMember path members)
  | [], _, _ => .ok []
  | (key, value) :: members, path, h => by
      obtain ⟨⟨_, hvalue⟩, hmembers⟩ := List.forall_mem_cons.mp (allTexts_of_object h)
      unfold readArgsMember
      split
      · split
        · exact settled_readArgs _ (allTexts_of_list hvalue)
        · exact .malformed _
      · refine settled_readArgsMember members ?_
        rw [Json.allTexts, Json.membersAllTexts_eq, List.all_eq_true]
        intro member hmember
        exact (Bool.and_eq_true _ _).mpr (hmembers member hmember)

theorem settled_readArgs : (items : List Json) → {path : Path} → {i : Nat} →
    (∀ v ∈ items, v.allTexts = true) → Settled (readArgs path i items)
  | [], _, _, _ => .ok []
  | item :: items, path, i, h => by
      obtain ⟨hitem, hitems⟩ := List.forall_mem_cons.mp h
      unfold readArgs
      exact (settled_readExpr item hitem).bind fun e _ => (settled_readArgs items hitems).finish _

end

/-! ## Statements and blocks -/

section

variable {source : ByteArray} {cursor : Nat} {path : Path}

theorem settled_readSpan (members : Json.Members) :
    Settled (readSpan source cursor path members) := by
  unfold readSpan
  split
  · refine (settled_expectList _ _).bind fun items _ => ?_
    split
    · exact .atPath _ _
    · exact .malformed _
  · refine (settled_expectString _ _).bind fun s _ => ?_
    exact (settled_encoded s).bind fun text _ => .atPath _ _
  · exact .malformed _

theorem settled_readStatement {v : Json} (h : statementNames v = true) :
    Settled (readStatement source cursor path v) := by
  obtain ⟨hexpr, hassign⟩ := (Bool.and_eq_true _ _).mp h
  refine (settled_expectObject path v).bind fun members hmembers => ?_
  obtain rfl := expectObject_eq_ok_iff.mp hmembers
  split
  · next expr hkey =>
    refine (settled_readExpr expr (allTexts_of_get? hexpr hkey)).bind fun e _ => ?_
    refine (settled_readSpan members).bind fun span _ => ?_
    split
    · next place hplace =>
      exact (settled_readForm _ (allTexts_of_get? hassign hplace)).finish _
    · exact .ok _
  · exact .malformed _

theorem settled_readStatements {items : List Json} (h : ∀ v ∈ items, statementNames v = true)
    (i : Nat) : Settled (readStatements source path i cursor items) := by
  induction items generalizing i cursor with
  | nil => exact .ok _
  | cons item items ih =>
      obtain ⟨hitem, hitems⟩ := List.forall_mem_cons.mp h
      exact (settled_readStatement hitem).bind fun s _ => (ih hitems (i + 1)).finish _

theorem settled_readBlock {v : Json} (h : blockNames v = true) :
    Settled (readBlock source cursor path v) := by
  simp only [blockNames, Bool.and_eq_true, List.all_eq_true] at h
  obtain ⟨⟨hname, hsuccessors⟩, hstatements⟩ := h
  refine (settled_expectObject path v).bind fun members hmembers => ?_
  obtain rfl := expectObject_eq_ok_iff.mp hmembers
  refine (settled_expectName _ (allTexts_memberOr hname .null rfl)).bind fun name _ => ?_
  refine (settled_expectList _ _).bind fun statements hlist => ?_
  refine (settled_expectList _ _).bind fun successors hnames => ?_
  have htexts := allTexts_of_expectList hsuccessors hnames
  rw [itemsUnder_of_memberOr (expectList_eq_ok_iff.mp hlist)] at hstatements
  refine .bind (settled_readItems _ ?_) fun names _ =>
    (settled_readStatements hstatements 0).finish _
  intro w hw path
  exact settled_expectName path (htexts w hw)

theorem settled_readBlocks {items : List Json} (h : ∀ v ∈ items, blockNames v = true) (i : Nat) :
    Settled (readBlocks source path i cursor items) := by
  induction items generalizing i cursor with
  | nil => exact .ok _
  | cons item items ih =>
      obtain ⟨hitem, hitems⟩ := List.forall_mem_cons.mp h
      exact (settled_readBlock hitem).bind fun b _ => (ih hitems (i + 1)).finish _

end

/-! ## Documents -/

theorem settled_readProgram {members : Json.Members} (h : namesAreTexts (.object members) = true)
    (source : RawString) : Settled (readProgram members source) := by
  simp only [namesAreTexts, Bool.and_eq_true, List.all_eq_true] at h
  obtain ⟨⟨hvars, hstructs⟩, hblocks⟩ := h
  refine (settled_expectObject _ _).bind fun vars hobject => ?_
  refine (settled_expectList _ _).bind fun structs hdecls => ?_
  refine (settled_expectList _ _).bind fun blocks hlist => ?_
  have hbindings := allTexts_of_expectObject hvars hobject
  have htexts := allTexts_of_expectList hstructs hdecls
  rw [itemsUnder_of_memberOr (expectList_eq_ok_iff.mp hlist)] at hblocks
  refine (settled_encoded source).bind fun text _ => ?_
  refine (settled_readBindings _ hbindings).bind fun bindings _ => ?_
  refine .bind (settled_readItems _ ?_) fun decls _ => (settled_readBlocks hblocks 0).finish _
  intro w hw path
  exact settled_readStruct path (htexts w hw)

theorem settled_load {doc : Json} (h : namesAreTexts doc = true) (override : Option RawString) :
    Settled (load doc override) := by
  refine (settled_expectObject _ doc).bind fun members hmembers => ?_
  obtain rfl := expectObject_eq_ok_iff.mp hmembers
  cases override with
  | some source => exact settled_readProgram h source
  | none => exact (settled_expectString _ _).bind fun source _ => settled_readProgram h source

end Document

end OriginFacts
