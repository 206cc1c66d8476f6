import OriginFacts.Proofs.Document.LoadOrder
import OriginFacts.Proofs.Document.Names

/-!
Loading goes through the checks of a document in order: it succeeds if all are met, and otherwise
fails at the position of the first one that is not, or without a position where bytes were asked of
a string that has none. Both are for documents whose names are texts.
-/

namespace OriginFacts.Document

/-! ## The first check that is not met -/

/-- What a check that is not met is given as the cause. Only a text to be found is said not to be
found, and only once the statements before have their positions. -/
def Check.Blames (c : Check) : Cause → Prop
  | .textNotFound text =>
    ∃ source before ss, c.rule = .next source before ∧ c.value = .str (.text text) ∧
      Placed source 0 before ss ∧ Unfound source (endOf 0 ss) text
  | _ => True

/-- What a check that is not met ends loading with: an error at its position, unless bytes were
asked of a string that has none. -/
inductive Check.Reports (c : Check) : LoadError → Prop where
  | malformed {cause : Cause} :
      c.rule ≠ .encodes → c.Blames cause → c.Reports (.malformed ⟨c.path, cause⟩)
  | unencodable {l : LoneString} :
      c.rule = .encodes → c.value = .str (.lone l) → c.Reports (.unencodable l.fault)

/-- The first check that is not met. -/
def FirstUnmet (cs : List Check) (c : Check) : Prop :=
  ∃ before after, cs = before ++ c :: after ∧ (∀ d ∈ before, d.Met) ∧ ¬ c.Met

/-- The first check that is not met reports the error. -/
inductive FailsWith : List Check → LoadError → Prop where
  | here {c : Check} {cs : List Check} {e : LoadError} :
      ¬ c.Met → c.Reports e → FailsWith (c :: cs) e
  | later {c : Check} {cs : List Check} {e : LoadError} :
      c.Met → FailsWith cs e → FailsWith (c :: cs) e

namespace FailsWith

variable {cs ds : List Check} {e : LoadError}

theorem append (h : FailsWith cs e) (ds : List Check) : FailsWith (cs ++ ds) e := by
  induction h with
  | here hc hreports => exact .here hc hreports
  | later hc _ ih => exact .later hc ih

theorem prepend (hcs : ∀ c ∈ cs, c.Met) (h : FailsWith ds e) : FailsWith (cs ++ ds) e := by
  induction cs with
  | nil => exact h
  | cons c cs ih =>
      obtain ⟨hc, hcs⟩ := List.forall_mem_cons.mp hcs
      exact .later hc (ih hcs)

theorem exists_firstUnmet (h : FailsWith cs e) : ∃ c, FirstUnmet cs c ∧ c.Reports e := by
  induction h with
  | @here c cs e hc hreports => exact ⟨c, ⟨[], cs, rfl, List.forall_mem_nil _, hc⟩, hreports⟩
  | @later c cs e hmet _ ih =>
      obtain ⟨d, ⟨before, after, rfl, hbefore, hd⟩, hreports⟩ := ih
      exact ⟨d, ⟨c :: before, after, rfl, List.forall_mem_cons.mpr ⟨hmet, hbefore⟩, hd⟩, hreports⟩

theorem reports (h : FailsWith cs e) {c : Check} (hfirst : FirstUnmet cs c) : c.Reports e := by
  obtain ⟨before, after, rfl, hbefore, hc⟩ := hfirst
  induction before with
  | nil =>
      cases h with
      | here _ hreports => exact hreports
      | later hmet _ => exact absurd hmet hc
  | cons d before ih =>
      obtain ⟨hd, hbefore⟩ := List.forall_mem_cons.mp hbefore
      cases h with
      | here hunmet _ => exact absurd hd hunmet
      | later _ h => exact ih h hbefore

end FailsWith

/-! ## Readers that go through checks -/

/-- The outcome of a reader is that of the checks. Where a name is no text, nothing is said. -/
def Obeys {α : Type} (cs : List Check) : Except LoadError α → Prop
  | .ok _ => ∀ c ∈ cs, c.Met
  | .error e => (∃ path, e = .foreign path) ∨ FailsWith cs e

namespace Obeys

variable {α β : Type} {cs ds : List Check}

theorem bind {result : Except LoadError α} {k : α → Except LoadError β} (h : Obeys cs result)
    (hk : ∀ a, result = .ok a → Obeys ds (k a)) : Obeys (cs ++ ds) (result >>= k) := by
  cases result with
  | error e => exact h.imp_right fun h => h.append ds
  | ok a =>
      have hrest := hk a rfl
      change Obeys (cs ++ ds) (k a)
      cases hka : k a with
      | ok b =>
          rw [hka] at hrest
          exact List.forall_mem_append.mpr ⟨h, hrest⟩
      | error e =>
          rw [hka] at hrest
          exact hrest.imp_right (.prepend h)

theorem nil (a : α) : Obeys [] (.ok a) :=
  List.forall_mem_nil _

/-- What is made of a result in the end has no checks of its own. -/
theorem finish {result : Except LoadError α} (h : Obeys cs result) (f : α → β) :
    Obeys cs (result >>= fun a => pure (f a)) := by
  rw [← List.append_nil cs]
  exact h.bind fun a _ => .nil (f a)

theorem foreign (cs : List Check) (path : Path) :
    Obeys cs (.error (.foreign path) : Except LoadError α) :=
  .inl ⟨path, rfl⟩

theorem fail {c : Check} {cs : List Check} {e : LoadError} (h : ¬ c.Met) (hreports : c.Reports e) :
    Obeys (c :: cs) (.error e : Except LoadError α) :=
  .inr (.here h hreports)

theorem cons {c : Check} {result : Except LoadError α} (hc : c.Met) (h : Obeys cs result) :
    Obeys (c :: cs) result := by
  cases result with
  | ok a => exact List.forall_mem_cons.mpr ⟨hc, h⟩
  | error e => exact h.imp_right (.later hc)

theorem mapM {read : α → Except LoadError β} {inside : α → List Check}
    (h : ∀ x, Obeys (inside x) (read x)) (xs : List α) :
    Obeys (xs.flatMap inside) (xs.mapM read) := by
  induction xs with
  | nil => exact .nil []
  | cons x xs ih =>
      rw [List.mapM_cons]
      exact (h x).bind fun b _ => ih.finish (b :: ·)

/-- The outcome of a reader with one check. -/
theorem single {c : Check} {result : Except LoadError α} (hok : (∃ a, result = .ok a) ↔ c.Met)
    (herror : ∀ e, result = .error e → c.Reports e) : Obeys [c] result := by
  cases result with
  | ok a => exact List.forall_mem_singleton.mpr (hok.mp ⟨a, rfl⟩)
  | error e =>
      have hunmet : ¬ c.Met := fun hmet => nomatch (hok.mpr hmet)
      exact .fail hunmet (herror e rfl)

end Obeys

/-! ## Values -/

theorem obeys_atPath {α : Type} {path : Path} {v : Json} {rule : Rule} {result : Except Cause α}
    (hrule : rule ≠ .encodes) (hok : (∃ a, result = .ok a) ↔ rule.Met v)
    (herror : ∀ cause, result = .error cause → Check.Blames ⟨path, v, rule⟩ cause) :
    Obeys [⟨path, v, rule⟩] (atPath path result) := by
  refine .single ?_ ?_
  · simp only [atPath_eq_ok_iff]
    exact hok
  · intro e he
    obtain ⟨cause, hcause, rfl⟩ := mapError_eq_error_iff.mp he
    exact .malformed hrule (herror cause hcause)

theorem obeys_wrongKind {α : Type} {path : Path} {v : Json} {expected : Json.Kind}
    (h : v.kind ≠ expected) :
    Obeys [⟨path, v, .kind expected⟩]
      (.error (.malformed ⟨path, .wrongKind expected v.kind⟩) : Except LoadError α) :=
  .fail h (.malformed nofun trivial)

theorem obeys_expectObject (path : Path) (v : Json) :
    Obeys [⟨path, v, .kind .object⟩] (expectObject path v) := by
  cases v with
  | object members => exact .cons rfl (.nil members)
  | _ => exact obeys_wrongKind nofun

theorem obeys_expectList (path : Path) (v : Json) :
    Obeys [⟨path, v, .kind .list⟩] (expectList path v) := by
  cases v with
  | list items => exact .cons rfl (.nil items)
  | _ => exact obeys_wrongKind nofun

theorem obeys_expectString (path : Path) (v : Json) :
    Obeys [⟨path, v, .kind .str⟩] (expectString path v) := by
  cases v with
  | str s => exact .cons rfl (.nil s)
  | _ => exact obeys_wrongKind nofun

theorem obeys_nameOf (path : Path) (s : RawString) : Obeys [] (nameOf path s) := by
  cases s with
  | text name => exact .nil name
  | lone => exact .foreign _ path

theorem obeys_expectName (path : Path) (v : Json) :
    Obeys [⟨path, v, .kind .str⟩] (expectName path v) :=
  (obeys_expectString path v).bind fun s _ => obeys_nameOf path s

theorem obeys_encoded (path : Path) (s : RawString) :
    Obeys [⟨path, .str s, .encodes⟩] (encoded s) := by
  cases s with
  | text text => exact .cons nofun (.nil text)
  | lone l => exact .fail (fun hmet => hmet ⟨l, rfl⟩) (.unencodable rfl rfl)

theorem obeys_readForm {α : Type} {parse : String → Except Surface.Error α} {form : Surface.Form}
    {path : Path} {v : Json}
    (hok : (∃ a, readForm parse path v = .ok a) ↔ (Rule.form form).Met v) :
    Obeys [⟨path, v, .form form⟩] (readForm parse path v) := by
  cases v with
  | str s =>
      cases s with
      | text text =>
          refine .single hok ?_
          intro e he
          obtain ⟨cause, hcause, rfl⟩ := mapError_eq_error_iff.mp he
          obtain ⟨_, _, rfl⟩ := mapError_eq_error_iff.mp hcause
          exact .malformed nofun trivial
      | lone => exact .foreign _ path
  | _ =>
      refine .single hok ?_
      intro e he
      cases he
      exact .malformed nofun trivial

theorem obeys_readPlace (path : Path) (v : Json) :
    Obeys [⟨path, v, .form .place⟩] (readPlace path v) :=
  obeys_readForm (exists_congr fun _ => readPlace_eq_ok_iff)

section

variable {α : Type} {path : Path} {members : Json.Members} {key : String} {rule : Rule}

theorem memberChecks_of_some {w : Json} (h : members.get? key = some w) :
    memberChecks path members key rule = [⟨path.key key, w, rule⟩] := by
  rw [memberChecks, h]
  rfl

theorem memberChecks_of_none (h : members.get? key = none) :
    memberChecks path members key rule = [] := by
  rw [memberChecks, h]
  rfl

theorem obeys_optional {read : Json → Except LoadError α} {default : Json} {a : α}
    (hread : ∀ v, Obeys [⟨path.key key, v, rule⟩] (read v)) (hdefault : read default = .ok a) :
    Obeys (memberChecks path members key rule) (read (optional members key default)) := by
  cases hkey : members.get? key with
  | some w =>
      rw [memberChecks_of_some hkey, optional, hkey]
      exact hread w
  | none =>
      rw [memberChecks_of_none hkey, optional, hkey]
      exact hdefault ▸ .nil a

theorem obeys_required {read : Json → Except LoadError α} {w : Json}
    (hread : ∀ v, Obeys [⟨path.key key, v, rule⟩] (read v)) (hkey : members.get? key = some w) :
    Obeys (memberChecks path members key rule) (read (required members key)) := by
  rw [memberChecks_of_some hkey, required, hkey]
  exact hread w

theorem obeys_object {v : Json} {inside : Json.Members → List Check}
    {k : Json.Members → Except LoadError α}
    (h : ∀ members, v = .object members → Obeys (inside members) (k members)) :
    Obeys (objectChecks path v inside) (expectObject path v >>= k) := by
  cases v with
  | object members => exact .cons rfl (h members rfl)
  | _ => exact obeys_wrongKind nofun

theorem obeys_readItems {read : Path → Json → Except LoadError α}
    {inside : Path → Json → List Check}
    (h : ∀ path v, Obeys (inside path v) (read path v)) (items : List Json) :
    Obeys (itemChecks inside path items) (readItems read path items) := by
  refine .mapM ?_ items.zipIdx
  rintro ⟨item, i⟩
  exact h (path.index i) item

end

/-! ## Declarations -/

theorem obeys_readTy (path : Path) (v : Json) : Obeys [⟨path, v, .form .ty⟩] (readTy path v) :=
  obeys_readForm (exists_congr fun _ => readTy_eq_ok_iff)

theorem obeys_readSlot (path : Path) (v : Json) :
    Obeys [⟨path, v, .form .slot⟩] (readSlot path v) :=
  obeys_readForm (exists_congr fun _ => readSlot_eq_ok_iff)

theorem obeys_readBindings (path : Path) (members : Json.Members) :
    Obeys (bindingChecks path members) (readBindings path members) := by
  refine .mapM ?_ members
  rintro ⟨name, ty⟩
  cases name with
  | text name => exact (obeys_readTy (path.key name) ty).finish _
  | lone => exact .foreign _ path

/-- The list under a key, once it is known to be one. -/
theorem itemsUnder_of_optional {members : Json.Members} {key : String} {path : Path}
    {items : List Json}
    (h : expectList path (optional members key (.list [])) = .ok items) :
    itemsUnder key (.object members) = items :=
  itemsUnder_of_memberOr (expectList_eq_ok_iff.mp h)

theorem membersUnder_of_optional {members : Json.Members} {key : String} {path : Path}
    {inner : Json.Members}
    (h : expectObject path (optional members key (.object [])) = .ok inner) :
    membersUnder key members = inner := by
  have hinner := expectObject_eq_ok_iff.mp h
  unfold optional at hinner
  unfold membersUnder
  cases hkey : members.get? key with
  | none =>
      rw [hkey] at hinner
      cases hinner
      rfl
  | some w =>
      rw [hkey] at hinner
      cases hinner
      rfl

theorem obeys_readStruct (path : Path) (v : Json) :
    Obeys (structChecks path v) (readStruct path v) := by
  refine obeys_object ?_
  rintro members rfl
  simp only [List.append_assoc]
  refine .bind (obeys_expectName _ _) fun name _ => ?_
  refine .bind (obeys_optional (obeys_expectList _) rfl) fun generics hgenerics => ?_
  refine .bind (obeys_optional (obeys_expectObject _) rfl) fun fields hfields => ?_
  rw [itemsUnder_of_optional hgenerics, membersUnder_of_optional hfields]
  refine .bind (obeys_readItems obeys_readSlot generics) fun slots _ => ?_
  exact (obeys_readBindings _ fields).finish _

/-! ## Expressions -/

theorem get?_of_kindsOf {members : Json.Members} {kind : ExprKind} (h : kindsOf members = [kind]) :
    ∃ w, members.get? kind.key = some w :=
  Option.isSome_iff_exists.mp ((kindsOf_eq_singleton_iff.mp h kind).mpr rfl)

theorem met_oneKind_iff {path : Path} {members : Json.Members} :
    (Check.mk path (.object members) .oneKind).Met ↔ ∃ kind, kindsOf members = [kind] := by
  simp only [kindsOf_eq_singleton_iff]
  rfl

theorem obeys_readAccess {path : Path} {members : Json.Members} {kind : ExprKind}
    (h : kindsOf members = [kind]) (access : AccessKind) :
    Obeys (memberChecks path members kind.key (.form .place))
      (readAccess path members kind.key access) := by
  obtain ⟨w, hw⟩ := get?_of_kindsOf h
  exact (obeys_required (obeys_readPlace _) hw).finish _

theorem obeys_readOrigin (path : Path) (v : Json) :
    Obeys [⟨path, v, .form .origin⟩] (readOrigin path v) :=
  obeys_readForm (exists_congr fun _ => readOrigin_eq_ok_iff)

theorem met_has {members : Json.Members} {key : String} {w : Json}
    (h : members.get? key = some w) : Rule.Met (.object members) (.has key) :=
  Option.isSome_iff_exists.mpr ⟨w, h⟩

theorem not_met_has {members : Json.Members} {key : String} (h : members.get? key = none) :
    ¬ Rule.Met (.object members) (.has key) := by
  intro hmet
  obtain ⟨w, hw⟩ := Option.isSome_iff_exists.mp hmet
  cases h.symm.trans hw

mutual

theorem obeys_readExpr : (v : Json) → {path : Path} →
    Obeys (exprChecks path v) (readExpr path v)
  | .object members, path => by
      unfold exprChecks readExpr
      simp only [List.cons_append, List.nil_append]
      refine .cons rfl ?_
      rcases hkinds : kindsOf members with _ | ⟨kind, _ | ⟨other, rest⟩⟩
      · refine .fail (mt met_oneKind_iff.mp ?_) (.malformed nofun trivial)
        simp [hkinds]
      · refine .cons (met_oneKind_iff.mpr ⟨kind, hkinds⟩) ?_
        cases kind with
        | borrow m =>
            cases horigin : Json.Members.get? members "origin" with
            | none => exact .fail (not_met_has horigin) (.malformed nofun trivial)
            | some w =>
                refine .cons (met_has horigin) ?_
                rw [memberChecks_of_some horigin]
                exact (obeys_readOrigin _ w).bind fun o _ => obeys_readAccess hkinds _
        | copy => exact obeys_readAccess hkinds _
        | move => exact obeys_readAccess hkinds _
        | call =>
            obtain ⟨w, hw⟩ := get?_of_kindsOf hkinds
            exact (obeys_required (obeys_expectName _) hw).bind fun callee _ =>
              (obeys_readArgsMember members).finish _
        | number =>
            obtain ⟨w, hw⟩ := get?_of_kindsOf hkinds
            have hnumber : Json.Members.get? members "number" = some w := hw
            dsimp only
            rw [memberChecks_of_some hnumber, hnumber]
            cases w with
            | int n => exact .cons rfl (.nil _)
            | _ =>
                refine .fail ?_ (.malformed nofun trivial)
                intro hkind
                cases hkind
        | unit => exact .nil _
      · have hmany : ¬ ∃ kind, kindsOf members = [kind] := by simp [hkinds]
        cases kind <;> exact .fail (mt met_oneKind_iff.mp hmany) (.malformed nofun trivial)
  | .null, _ => obeys_wrongKind nofun
  | .bool _, _ => obeys_wrongKind nofun
  | .int _, _ => obeys_wrongKind nofun
  | .float _, _ => obeys_wrongKind nofun
  | .str _, _ => obeys_wrongKind nofun
  | .list _, _ => obeys_wrongKind nofun

theorem obeys_readArgsMember : (members : List (RawString × Json)) → {path : Path} →
    Obeys (argsMemberChecks path members) (readArgsMember path members)
  | [], _ => .nil []
  | (key, value) :: members, path => by
      unfold argsMemberChecks readArgsMember
      by_cases hkey : key = .text "args"
      · rw [if_pos hkey, if_pos hkey]
        cases value with
        | list items => exact .cons rfl (obeys_readArgs items)
        | _ => exact obeys_wrongKind nofun
      · rw [if_neg hkey, if_neg hkey]
        exact obeys_readArgsMember members

theorem obeys_readArgs : (items : List Json) → {path : Path} → {i : Nat} →
    Obeys (argChecks path i items) (readArgs path i items)
  | [], _, _ => .nil []
  | item :: items, path, i => by
      unfold argChecks readArgs
      exact (obeys_readExpr item).bind fun e _ => (obeys_readArgs items).finish (e :: ·)

end

/-! ## Statements -/

theorem SpanOf.unique {source : ByteArray} {cursor : Nat} {v : Json} {span span' : Span}
    (h : SpanOf source cursor v span) (h' : SpanOf source cursor v span') : span = span' := by
  cases v with
  | object members =>
      have hread : readSpan source cursor [] members = .ok span := readSpan_eq_ok_iff.mpr h
      rw [readSpan_eq_ok_iff.mpr h'] at hread
      exact (Except.ok.inj hread).symm
  | _ => cases h with
    | offsets given => cases given
    | text _ _ given => cases given

/-- Where statements end depends on their values alone. -/
theorem Placed.endOf_eq {source : ByteArray} {cursor : Nat} {items : List Json}
    {ss ss' : List Statement} (h : Placed source cursor items ss)
    (h' : Placed source cursor items ss') : endOf cursor ss = endOf cursor ss' := by
  induction h generalizing ss' with
  | nil =>
      cases h'
      rfl
  | @cons cursor item s items ss hspan _ ih =>
      cases h' with
      | @cons _ _ s' _ ss' hspan' hrest' =>
          have hend : s.span.stop.toNat = s'.span.stop.toNat := by rw [hspan.unique hspan']
          show endOf s.span.stop.toNat ss = endOf s'.span.stop.toNat ss'
          rw [← hend] at hrest' ⊢
          exact ih hrest'

theorem Placed.append {source : ByteArray} {cursor : Nat} {vs ws : List Json}
    {ss ts : List Statement} (h : Placed source cursor vs ss)
    (h' : Placed source (endOf cursor ss) ws ts) : Placed source cursor (vs ++ ws) (ss ++ ts) :=
  (Placed.append_iff h.length_eq).mpr ⟨h, h'⟩

section

variable {source : ByteArray} {before : List Json} {ss : List Statement} {path : Path}

theorem blames_of_checkOffsets {start stop : Int} {cause : Cause}
    (h : checkOffsets source start stop = .error cause) (c : Check) : c.Blames cause := by
  unfold checkOffsets at h
  split at h
  · split at h <;> cases h
    trivial
  · cases h
    trivial

/-- Given offsets can fail in several ways, all of them at the same position. -/
theorem obeys_offsets {cursor : Nat} {members : Json.Members} {span : Json}
    (hspan : members.get? "span" = some span) :
    Obeys [⟨path.key "span", span, .offsets source⟩] (readSpan source cursor path members) := by
  refine .single ?_ ?_
  · simp only [readSpan_eq_ok_iff]
    constructor
    · rintro ⟨found, hfound⟩
      cases hfound with
      | offsets given text covers =>
          exact ⟨found, text, Option.some.inj (hspan.symm.trans given), covers⟩
      | text absent => cases hspan.symm.trans absent
    · rintro ⟨found, text, rfl, hcovers⟩
      exact ⟨found, .offsets hspan text hcovers⟩
  · intro e he
    unfold readSpan at he
    rw [hspan] at he
    rcases bind_eq_error_iff.mp he with hlist | ⟨items, _, hitems⟩
    · cases span <;> cases hlist <;> exact .malformed nofun trivial
    · split at hitems
      · obtain ⟨cause, hcause, rfl⟩ := mapError_eq_error_iff.mp hitems
        exact .malformed nofun (blames_of_checkOffsets hcause _)
      · cases hitems
        exact .malformed nofun trivial

theorem obeys_locateText (hplaced : Placed source 0 before ss) (text : String) :
    Obeys [⟨path, .str text, .next source before⟩]
      (atPath path (locateText source (endOf 0 ss) text)) := by
  refine obeys_atPath nofun ?_ ?_
  · simp only [locateText_eq_ok_iff]
    constructor
    · rintro ⟨span, hne, hnext⟩
      exact ⟨ss, text, span, hplaced, rfl, hne, hnext⟩
    · rintro ⟨ss', _, span, hplaced', ⟨⟩, hne, hnext⟩
      rw [hplaced'.endOf_eq hplaced] at hnext
      exact ⟨span, hne, hnext⟩
  · intro cause hcause
    obtain ⟨rfl, hunfound⟩ := locateText_eq_error_iff.mp hcause
    exact ⟨source, before, ss, rfl, rfl, hplaced, hunfound⟩

/-- A text is turned into bytes before it is looked for. -/
theorem obeys_text (hplaced : Placed source 0 before ss) (v : Json) :
    Obeys [⟨path, v, .encodes⟩, ⟨path, v, .next source before⟩] (do
      let text ← encoded (← expectString path v)
      atPath path (locateText source (endOf 0 ss) text)) := by
  cases v with
  | str s =>
      refine .bind (obeys_encoded path s) ?_
      intro text htext
      obtain rfl := encoded_eq_ok_iff.mp htext
      exact obeys_locateText hplaced text
  | _ =>
      refine .cons nofun (.fail ?_ (.malformed nofun trivial))
      rintro ⟨_, _, _, _, ⟨⟩, _⟩

theorem obeys_readSpan (hplaced : Placed source 0 before ss) (members : Json.Members) :
    Obeys (positionChecks source before path members)
      (readSpan source (endOf 0 ss) path members) := by
  unfold positionChecks
  cases hspan : members.get? "span" with
  | some span => exact .cons (.inl (met_has hspan)) (obeys_offsets hspan)
  | none =>
      unfold readSpan
      rw [hspan]
      cases htext : members.get? "text" with
      | some text =>
          refine .cons (.inr (met_has htext)) ?_
          rw [memberChecks_of_some htext, memberChecks_of_some htext]
          exact obeys_text hplaced text
      | none =>
          refine .fail ?_ (.malformed nofun trivial)
          rintro (hmet | hmet)
          · exact not_met_has hspan hmet
          · exact not_met_has htext hmet

theorem obeys_readStatement (hplaced : Placed source 0 before ss) (v : Json) :
    Obeys (statementChecks source before path v)
      (readStatement source (endOf 0 ss) path v) := by
  refine obeys_object ?_
  rintro members rfl
  cases hexpr : Json.Members.get? members "expr" with
  | none => exact .fail (not_met_has hexpr) (.malformed nofun trivial)
  | some expr =>
      simp only [Option.toList_some, List.flatMap_singleton, List.append_assoc, List.cons_append,
        List.nil_append]
      refine .cons (met_has hexpr) (.bind (obeys_readExpr expr) fun e _ => ?_)
      refine .bind (obeys_readSpan hplaced members) fun span _ => ?_
      cases hassign : Json.Members.get? members "assign" with
      | some place =>
          rw [memberChecks_of_some hassign]
          exact (obeys_readPlace _ place).finish _
      | none =>
          rw [memberChecks_of_none hassign]
          exact .nil _

theorem obeys_readStatements (hplaced : Placed source 0 before ss) (i : Nat) (items : List Json) :
    Obeys (statementListChecks source before path i items)
      (readStatements source path i (endOf 0 ss) items) := by
  induction items generalizing before ss i with
  | nil => exact .nil _
  | cons item items ih =>
      refine .bind (obeys_readStatement hplaced item) fun s hs => ?_
      obtain ⟨_, hspan⟩ := readStatement_eq_ok_iff.mp hs
      have hnext := ih (hplaced.append (.cons hspan .nil)) (i + 1)
      rw [endOf_append] at hnext
      exact hnext.finish _

/-! ## Blocks -/

theorem obeys_readBlock (hplaced : Placed source 0 before ss) (v : Json) :
    Obeys (blockChecks source before path v) (readBlock source (endOf 0 ss) path v) := by
  refine obeys_object ?_
  rintro members rfl
  simp only [List.append_assoc]
  refine .bind (obeys_expectName _ _) fun name _ => ?_
  refine .bind (obeys_optional (obeys_expectList _) rfl) fun statements hstatements => ?_
  refine .bind (obeys_optional (obeys_expectList _) rfl) fun successors hsuccessors => ?_
  rw [itemsUnder_of_optional hstatements, itemsUnder_of_optional hsuccessors]
  refine .bind (obeys_readItems obeys_expectName successors) fun names _ => ?_
  exact (obeys_readStatements hplaced 0 statements).finish _

theorem obeys_readBlocks (hplaced : Placed source 0 before ss) (i : Nat) (items : List Json) :
    Obeys (blockListChecks source before path i items)
      (readBlocks source path i (endOf 0 ss) items) := by
  induction items generalizing before ss i with
  | nil => exact .nil _
  | cons item items ih =>
      refine .bind (obeys_readBlock hplaced item) fun b hb => ?_
      obtain ⟨b, cursor⟩ := b
      obtain ⟨_, hstatements, rfl⟩ := readBlock_eq_ok_iff.mp hb
      have hnext := ih (hplaced.append hstatements) (i + 1)
      rw [endOf_append] at hnext
      exact hnext.finish _

end

/-! ## Documents -/

theorem obeys_readProgram (members : Json.Members) (source : RawString) :
    Obeys
      (memberChecks [] members "variables" (.kind .object) ++
      memberChecks [] members "structs" (.kind .list) ++
      memberChecks [] members "blocks" (.kind .list) ++
      [⟨Path.key [] "source", .str source, .encodes⟩] ++
      bindingChecks (Path.key [] "variables") (membersUnder "variables" members) ++
      itemChecks structChecks (Path.key [] "structs") (itemsUnder "structs" (.object members)) ++
      blockListChecks (textOf source).toUTF8 [] (Path.key [] "blocks") 0
        (itemsUnder "blocks" (.object members)))
      (readProgram members source) := by
  simp only [List.append_assoc]
  refine .bind (obeys_optional (obeys_expectObject _) rfl) fun vars hvars => ?_
  refine .bind (obeys_optional (obeys_expectList _) rfl) fun structs hstructs => ?_
  refine .bind (obeys_optional (obeys_expectList _) rfl) fun blocks hblocks => ?_
  rw [membersUnder_of_optional hvars, itemsUnder_of_optional hstructs,
    itemsUnder_of_optional hblocks]
  refine .bind (obeys_encoded _ source) fun text htext => ?_
  obtain rfl := encoded_eq_ok_iff.mp htext
  refine .bind (obeys_readBindings _ vars) fun vars _ => ?_
  refine .bind (obeys_readItems obeys_readStruct structs) fun structs _ => ?_
  exact (obeys_readBlocks .nil 0 blocks).finish _

theorem obeys_load (doc : Json) (override : Option RawString) :
    Obeys (checks doc override) (load doc override) := by
  refine obeys_object ?_
  rintro members rfl
  simp only [List.append_assoc]
  cases override with
  | some source =>
      have h := obeys_readProgram members source
      simp only [List.append_assoc] at h
      exact h
  | none =>
      refine .bind (obeys_optional (obeys_expectString _) rfl) fun source hsource => ?_
      have h := obeys_readProgram members source
      simp only [List.append_assoc] at h
      have hsource : memberOr (.object members) "source" (.str "") = .str source :=
        expectString_eq_ok_iff.mp hsource
      rw [sourceOf, givenSource, hsource]
      exact h

section

variable {doc : Json} {override : Option RawString}

theorem failsWith_of_load_eq_error (hnames : namesAreTexts doc = true) {e : LoadError}
    (h : load doc override = .error e) : FailsWith (checks doc override) e := by
  have hobeys := obeys_load doc override
  rw [h] at hobeys
  rcases hobeys with ⟨path, rfl⟩ | hfails
  · exact absurd h (settled_load hnames override path)
  · exact hfails

theorem exists_reports_of_firstUnmet (hnames : namesAreTexts doc = true) {c : Check}
    (hfirst : FirstUnmet (checks doc override) c) :
    ∃ e, load doc override = .error e ∧ c.Reports e := by
  cases hload : load doc override with
  | ok result =>
      have hobeys := obeys_load doc override
      rw [hload] at hobeys
      obtain ⟨before, after, hchecks, _, hunmet⟩ := hfirst
      exact absurd (hobeys c (by simp [hchecks])) hunmet
  | error e => exact ⟨e, rfl, (failsWith_of_load_eq_error hnames hload).reports hfirst⟩

theorem FirstUnmet.belongs {c : Check} (h : FirstUnmet (checks doc override) c) :
    c.Belongs doc override := by
  obtain ⟨before, after, hchecks, _⟩ := h
  exact belongs_checks doc override c (by simp [hchecks])

/-- A document with names that are texts fails to load in two ways only. -/
theorem load_eq_error_cases (hnames : namesAreTexts doc = true) {e : LoadError}
    (h : load doc override = .error e) :
    (∃ error, e = .malformed error) ∨ ∃ fault, e = .unencodable fault := by
  cases e with
  | malformed error => exact .inl ⟨error, rfl⟩
  | unencodable fault => exact .inr ⟨fault, rfl⟩
  | foreign path => exact absurd h (settled_load hnames override path)

end

/-- Loading fails at a position exactly if the first check that is not met is about that position.
The value of this check is the one at the position, or null for a missing name. Loading fails
without a position exactly if the first check that is not met asks for bytes of a string that has
none, and there is no other way to fail. A position is shown in front of the cause: a dollar sign,
and then step by step each key behind a dot and each index in brackets. -/
theorem load_first_violation (doc : Json) (override : Option RawString)
    (hnames : namesAreTexts doc = true) :
    (∀ path, (∃ cause, load doc override = .error (.malformed ⟨path, cause⟩)) ↔
      ∃ check, FirstUnmet (checks doc override) check ∧ check.rule ≠ .encodes ∧
        check.path = path ∧ check.Stands doc) ∧
    (∀ fault, load doc override = .error (.unencodable fault) ↔
      ∃ check l, FirstUnmet (checks doc override) check ∧ check.rule = .encodes ∧
        check.value = .str (.lone l) ∧ l.fault = fault) ∧
    (∀ e, load doc override = .error e →
      (∃ error : Error, e = .malformed error ∧
        error.message = error.path.render ++ ": " ++ error.cause.message) ∨
      ∃ fault, e = .unencodable fault) ∧
    Path.render [] = "$" ∧
    (∀ (path : Path) name, (path.key name).render = path.render ++ "." ++ name) ∧
    ∀ (path : Path) i, (path.index i).render = path.render ++ "[" ++ toString i ++ "]" := by
  refine ⟨?_, ?_, ?_, Path.render_root, Path.render_key, Path.render_index⟩
  · intro path
    constructor
    · rintro ⟨cause, hload⟩
      obtain ⟨check, hfirst, hreports⟩ :=
        (failsWith_of_load_eq_error hnames hload).exists_firstUnmet
      cases hreports with
      | malformed hrule _ =>
          exact ⟨check, hfirst, hrule, rfl, hfirst.belongs.stands.resolve_left hrule⟩
    · rintro ⟨check, hfirst, hrule, rfl, _⟩
      obtain ⟨e, hload, hreports⟩ := exists_reports_of_firstUnmet hnames hfirst
      cases hreports with
      | @malformed cause _ _ => exact ⟨cause, hload⟩
      | unencodable hencodes _ => exact absurd hencodes hrule
  · intro fault
    constructor
    · intro hload
      obtain ⟨check, hfirst, hreports⟩ :=
        (failsWith_of_load_eq_error hnames hload).exists_firstUnmet
      cases hreports with
      | @unencodable l hrule hvalue => exact ⟨check, l, hfirst, hrule, hvalue, rfl⟩
    · rintro ⟨check, l, hfirst, hrule, hvalue, rfl⟩
      obtain ⟨e, hload, hreports⟩ := exists_reports_of_firstUnmet hnames hfirst
      cases hreports with
      | malformed hother _ => exact absurd hrule hother
      | unencodable _ hvalue' =>
          cases hvalue.symm.trans hvalue'
          exact hload
  · intro e hload
    rcases load_eq_error_cases hnames hload with ⟨error, rfl⟩ | hfault
    · exact .inl ⟨error, rfl, error.message_eq⟩
    · exact .inr hfault

/-- A struct without a name, and a variable whose type is a number. -/
def twoFaultsDoc : Json :=
  .object [("structs", .list [.object []]), ("variables", .object [("x", .int 0)])]

-- Variables come before structs, however the keys are ordered, and a missing name has a position.
theorem load_first_violation_twoFaults :
    let nameless : Json := .object [("structs", .list [.object []])]
    namesAreTexts twoFaultsDoc = true ∧ namesAreTexts nameless = true ∧
      (∃ check, FirstUnmet (checks twoFaultsDoc none) check ∧
        check.path.render = "$.variables.x") ∧
      ∃ check, FirstUnmet (checks nameless none) check ∧
        check.path.render = "$.structs[0].name" := by
  intro nameless
  have hvariable : load twoFaultsDoc none =
      .error (.malformed ⟨[.key "variables", .key "x"], .notText .int⟩) := rfl
  have hname : load nameless none =
      .error (.malformed ⟨[.key "structs", .index 0, .key "name"], .wrongKind .str .null⟩) := rfl
  obtain ⟨check, hfirst, _, hpath, _⟩ :=
    ((load_first_violation twoFaultsDoc none rfl).1 _).mp ⟨_, hvariable⟩
  obtain ⟨check', hfirst', _, hpath', _⟩ :=
    ((load_first_violation nameless none rfl).1 _).mp ⟨_, hname⟩
  exact ⟨rfl, rfl, ⟨check, hfirst, hpath ▸ rfl⟩, ⟨check', hfirst', hpath' ▸ rfl⟩⟩

/-- A surrogate and nothing else. -/
def loneSurrogate : LoneString :=
  ⟨"", .lowest, []⟩

-- A text that is not found has a position, unless it has no bytes to be looked for.
theorem load_lone_text :
    let doc (text : RawString) : Json := .object [("source", .str "x"),
      ("blocks", .list [.object [("name", .str "b"), ("statements", .list [.object
        [("expr", .object [("number", .int 0)]), ("text", .str text)]])]])]
    load (doc "y") none =
        .error (.malformed ⟨[.key "blocks", .index 0, .key "statements", .index 0, .key "text"],
          .textNotFound "y"⟩) ∧
      load (doc (.lone loneSurrogate)) none = .error (.unencodable ⟨.lowest, 0, 1⟩) :=
  ⟨rfl, rfl⟩

/-! ## What loading comes to -/

section

variable {doc : Json} {override : Option RawString}

theorem kind_eq_list_iff {v : Json} : v.kind = .list ↔ ∃ items, v = .list items := by
  cases v <;> simp [Json.kind]

/-- A document whose parts are of their kinds. -/
structure HasParts (doc : Json) : Prop where
  object : doc.kind = .object
  vars : (memberOr doc "variables" (.object [])).kind = .object
  structs : (memberOr doc "structs" (.list [])).kind = .list
  blocks : (memberOr doc "blocks" (.list [])).kind = .list

theorem readProgram_lone {members : Json.Members} (h : HasParts (.object members))
    (l : LoneString) : readProgram members (.lone l) = .error (.unencodable l.fault) := by
  obtain ⟨vars, hvars⟩ := kind_eq_object_iff.mp h.vars
  obtain ⟨structs, hstructs⟩ := kind_eq_list_iff.mp h.structs
  obtain ⟨blocks, hblocks⟩ := kind_eq_list_iff.mp h.blocks
  refine bind_eq_error_iff.mpr (.inr ⟨vars, expectObject_eq_ok_iff.mpr hvars, ?_⟩)
  refine bind_eq_error_iff.mpr (.inr ⟨structs, expectList_eq_ok_iff.mpr hstructs, ?_⟩)
  refine bind_eq_error_iff.mpr (.inr ⟨blocks, expectList_eq_ok_iff.mpr hblocks, ?_⟩)
  exact bind_eq_error_iff.mpr (.inl rfl)

theorem load_lone {l : LoneString} (h : HasParts doc)
    (hsource : givenSource doc override = .lone l) :
    load doc override = .error (.unencodable l.fault) := by
  obtain ⟨members, rfl⟩ := kind_eq_object_iff.mp h.object
  have hprogram := readProgram_lone h l
  cases override with
  | some source =>
      cases hsource
      exact hprogram
  | none =>
      refine bind_eq_error_iff.mpr (.inr ⟨members, rfl, ?_⟩)
      refine bind_eq_error_iff.mpr (.inr ⟨.lone l, expectString_eq_ok_iff.mpr ?_, hprogram⟩)
      rw [givenSource] at hsource
      split at hsource
      · next source hmember => rw [optional_eq_memberOr, hmember, hsource]
      · cases hsource

/-- Bytes are asked of the source and of the texts of statements without offsets, and of nothing
else. -/
theorem exists_lone_of_load (hnames : namesAreTexts doc = true) {fault : EncodeFault}
    (h : load doc override = .error (.unencodable fault)) :
    ∃ l : LoneString, l.fault = fault ∧ (givenSource doc override = .lone l ∨
      ∃ item ∈ statementsOf doc, item.get? "span" = none ∧
        item.get? "text" = some (.str (.lone l))) := by
  obtain ⟨⟨path, v, rule⟩, hfirst, hreports⟩ :=
    (failsWith_of_load_eq_error hnames h).exists_firstUnmet
  have hfollows := hfirst.belongs.follows
  cases hreports with
  | @unencodable l hrule hvalue =>
      cases hrule
      cases hvalue
      refine ⟨l, rfl, hfollows.imp_left ?_⟩
      intro hsource
      exact (Json.str.inj hsource).symm

end

/-- Loading gives a program and a source exactly if the document describes them. Any other document
is refused, with an error about one of its values unless its source or the text of a statement has
no bytes; where the source has none this is all that is said, whatever is inside the parts. -/
theorem load_exact (doc : Json) (override : Option RawString) (hnames : namesAreTexts doc = true) :
    (∀ p source, load doc override = .ok (p, source) ↔ Describes doc override p source) ∧
    ((∀ p source, ¬ Describes doc override p source) →
      (∃ e, load doc override = .error (.malformed e)) ∨
      ∃ fault, load doc override = .error (.unencodable fault)) ∧
    (∀ fault, load doc override = .error (.unencodable fault) →
      ∃ l : LoneString, l.fault = fault ∧ (givenSource doc override = .lone l ∨
        ∃ item ∈ statementsOf doc, item.get? "span" = none ∧
          item.get? "text" = some (.str (.lone l)))) ∧
    ∀ l, HasParts doc → givenSource doc override = .lone l →
      load doc override = .error (.unencodable l.fault) := by
  refine ⟨fun p source => load_eq_ok_iff_describes, ?_, fun fault => exists_lone_of_load hnames,
    fun l => load_lone⟩
  intro hnone
  cases hload : load doc override with
  | ok result =>
      obtain ⟨p, source⟩ := result
      exact absurd (load_eq_ok_iff_describes.mp hload) (hnone p source)
  | error e =>
      rcases load_eq_error_cases hnames hload with ⟨error, rfl⟩ | ⟨fault, rfl⟩
      · exact .inl ⟨error, rfl⟩
      · exact .inr ⟨fault, rfl⟩

-- The type of a variable is wrong as well, but the source is turned into bytes before.
theorem load_exact_loneSource :
    let doc : Json := .object [
      ("source", .str (.lone ⟨"é", .lowest, [.surrogate .lowest, .char 'x']⟩)),
      ("variables", .object [("x", .int 0)])]
    namesAreTexts doc = true ∧ HasParts doc ∧
      load doc none = .error (.unencodable ⟨.lowest, 1, 2⟩) ∧
      ∀ p source, ¬ Describes doc none p source := by
  intro doc
  have hparts : HasParts doc := ⟨rfl, rfl, rfl, rfl⟩
  obtain ⟨hok, _, _, hlone⟩ := load_exact doc none rfl
  have hload := hlone _ hparts rfl
  refine ⟨rfl, hparts, hload, ?_⟩
  intro p source hdoc
  cases hload.symm.trans ((hok p source).mpr hdoc)

-- Every string may be a source as far as its kind goes.
theorem load_lone_source :
    let doc (source : RawString) : Json := .object [("source", .str source)]
    load (doc "") none = .ok (⟨[], [], []⟩, "") ∧
      load (doc (.lone loneSurrogate)) none = .error (.unencodable ⟨.lowest, 0, 1⟩) :=
  ⟨rfl, rfl⟩

end OriginFacts.Document
