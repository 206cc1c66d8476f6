import OriginFacts.Proofs.Lists
import OriginFacts.Resolve

/-!
Origins of types and of places: a place has at least the origins of its type. A place that has none
is at fault for what the program declares, never for a position in the source. Places are resolved
field by field: further fields go on from the type of the place and add origins behind its own, and
a place that fails does so with any fields behind it.
-/

namespace OriginFacts

/-- The fault concerns a position in the source. -/
def Fault.isSpanFault : Fault → Bool
  | .invalidSpan .. => true
  | _ => false

/-- The fault concerns a field: what has it, its declaration, or the argument that it stands for. -/
def Fault.isFieldFault : Fault → Bool
  | .notAStruct .. => true
  | .unknownStruct .. => true
  | .unknownField .. => true
  | .genericArgument .. => true
  | _ => false

theorem Fault.isSpanFault_of_isFieldFault {fault : Fault} (h : fault.isFieldFault = true) :
    fault.isSpanFault = false := by
  cases fault with
  | invalidSpan => cases h
  | _ => rfl

mutual

theorem Ty.collectOrigins_eq_append (acc : List Origin) :
    (t : Ty) → t.collectOrigins acc = acc ++ t.origins
  | .i32 => by simp [Ty.collectOrigins, Ty.origins]
  | .unit => by simp [Ty.collectOrigins, Ty.origins]
  | .ref _ o target => by
      simp only [Ty.collectOrigins, Ty.origins, List.nil_append]
      rw [Ty.collectOrigins_eq_append (acc ++ [o]) target, Ty.collectOrigins_eq_append [o] target,
        List.append_assoc]
  | .struct _ args => by
      simp only [Ty.collectOrigins, Ty.origins]
      exact Arg.collectAll_eq_append acc args

theorem Arg.collectOrigins_eq_append (acc : List Origin) :
    (a : Arg) → a.collectOrigins acc = acc ++ a.collectOrigins []
  | .origin o => by simp [Arg.collectOrigins]
  | .ty t => by
      simp only [Arg.collectOrigins]
      exact Ty.collectOrigins_eq_append acc t

theorem Arg.collectAll_eq_append (acc : List Origin) :
    (args : List Arg) → Arg.collectAll acc args = acc ++ Arg.collectAll [] args
  | [] => by simp [Arg.collectAll]
  | a :: args => by
      simp only [Arg.collectAll]
      rw [Arg.collectAll_eq_append (a.collectOrigins acc) args,
        Arg.collectAll_eq_append (a.collectOrigins []) args, Arg.collectOrigins_eq_append acc a,
        List.append_assoc]

end

theorem Ty.origins_ref (m : Mutability) (o : Origin) (target : Ty) :
    (Ty.ref m o target).origins = o :: target.origins :=
  Ty.collectOrigins_eq_append [o] target

theorem Arg.collectAll_cons (a : Arg) (args : List Arg) :
    Arg.collectAll [] (a :: args) = a.collectOrigins [] ++ Arg.collectAll [] args :=
  Arg.collectAll_eq_append (a.collectOrigins []) args

theorem Ty.refOrigin?_mem_origins {t : Ty} {o : Origin} (h : t.refOrigin? = some o) :
    o ∈ t.origins := by
  cases t with
  | ref m o' target =>
      cases h
      rw [origins_ref]
      exact List.mem_cons_self ..
  | _ => cases h

namespace Program

variable {p : Program}

/-- The walk along fields ends with the origins of the type that it reaches. -/
theorem walk_origins_suffix {ty : Ty} {origins : List Origin} {fields : List String} {r : Resolved}
    (h : p.walk ty origins fields = .ok r) : r.ty.origins <:+ r.origins := by
  induction fields generalizing ty origins with
  | nil =>
      cases h
      exact ⟨origins, (Ty.collectOrigins_eq_append origins ty).symm⟩
  | cons field fields ih =>
      rw [walk] at h
      split at h
      · exact ih h
      · cases h

theorem resolve_origins_suffix {place : Place} {r : Resolved} (h : p.resolve place = .ok r) :
    r.ty.origins <:+ r.origins := by
  unfold resolve at h
  split at h
  · exact walk_origins_suffix h
  · cases h

theorem refOrigin?_mem_of_resolve {place : Place} {r : Resolved} {o : Origin}
    (h : p.resolve place = .ok r) (ho : r.ty.refOrigin? = some o) : o ∈ r.origins :=
  (resolve_origins_suffix h).subset (Ty.refOrigin?_mem_origins ho)

/-! ## Walks along fields -/

/-- From a type, the fields lead through these types, one for each field. -/
inductive Leads (p : Program) : Ty → List String → List Ty → Prop where
  | nil {ty : Ty} : Leads p ty [] []
  | cons {ty next : Ty} {field : String} {fields : List String} {reached : List Ty} :
      p.fieldTy ty field = .ok next → Leads p next fields reached →
        Leads p ty (field :: fields) (next :: reached)

/-- From a type, the first field that cannot be followed has this fault. -/
inductive Halts (p : Program) : Ty → List String → Fault → Prop where
  | here {ty : Ty} {field : String} {fields : List String} {fault : Fault} :
      p.fieldTy ty field = .error fault → Halts p ty (field :: fields) fault
  | further {ty next : Ty} {field : String} {fields : List String} {fault : Fault} :
      p.fieldTy ty field = .ok next → Halts p next fields fault →
        Halts p ty (field :: fields) fault

variable {ty : Ty} {origins : List Origin} {fields more : List String} {fault : Fault}

theorem walk_eq_ok_iff {r : Resolved} :
    p.walk ty origins fields = .ok r ↔
      ∃ reached, p.Leads ty fields reached ∧
        r = ⟨reached.getLastD ty, origins ++ (ty :: reached).flatMap Ty.origins⟩ := by
  induction fields generalizing ty origins with
  | nil =>
      rw [walk, Ty.collectOrigins_eq_append]
      constructor
      · intro h
        cases h
        exact ⟨[], .nil, by simp⟩
      · rintro ⟨_, ⟨⟩, rfl⟩
        simp
  | cons field fields ih =>
      rw [walk]
      split
      · next next hfield =>
        rw [ih, Ty.collectOrigins_eq_append]
        constructor
        · rintro ⟨reached, hleads, rfl⟩
          refine ⟨next :: reached, .cons hfield hleads, ?_⟩
          simp only [List.getLastD_cons, List.flatMap_cons, List.append_assoc]
        · rintro ⟨_, _ | ⟨hfield', hleads⟩, rfl⟩
          cases hfield.symm.trans hfield'
          refine ⟨_, hleads, ?_⟩
          simp only [List.getLastD_cons, List.flatMap_cons, List.append_assoc]
      · next fault hfield =>
        constructor
        · intro h
          cases h
        · rintro ⟨_, _ | ⟨hfield', _⟩, _⟩
          cases hfield.symm.trans hfield'

theorem walk_eq_error_iff : p.walk ty origins fields = .error fault ↔ p.Halts ty fields fault := by
  induction fields generalizing ty origins with
  | nil =>
      constructor
      · intro h
        cases h
      · rintro ⟨⟩
  | cons field fields ih =>
      rw [walk]
      split
      · next next hfield =>
        rw [ih]
        constructor
        · exact .further hfield
        · rintro (hfield' | ⟨hfield', hhalts⟩)
          · cases hfield.symm.trans hfield'
          · cases hfield.symm.trans hfield'
            exact hhalts
      · next fault' hfield =>
        constructor
        · intro h
          cases h
          exact .here hfield
        · rintro (hfield' | ⟨hfield', _⟩)
          · cases hfield.symm.trans hfield'
            rfl
          · cases hfield.symm.trans hfield'

/-- A walk along more fields is a walk along the first of them and one that goes on from its end. -/
theorem leads_append_iff {reached : List Ty} :
    p.Leads ty (fields ++ more) reached ↔
      ∃ first second, reached = first ++ second ∧ p.Leads ty fields first ∧
        p.Leads (first.getLastD ty) more second := by
  induction fields generalizing ty reached with
  | nil =>
      constructor
      · intro h
        exact ⟨[], reached, rfl, .nil, h⟩
      · rintro ⟨_, second, rfl, ⟨⟩, h⟩
        exact h
  | cons field fields ih =>
      constructor
      · rintro (_ | ⟨hfield, h⟩)
        obtain ⟨first, second, rfl, hfirst, hsecond⟩ := ih.mp h
        exact ⟨_ :: first, second, rfl, .cons hfield hfirst, by rwa [List.getLastD_cons]⟩
      · rintro ⟨_, second, rfl, _ | ⟨hfield, hfirst⟩, hsecond⟩
        rw [List.getLastD_cons] at hsecond
        exact .cons hfield (ih.mpr ⟨_, second, rfl, hfirst, hsecond⟩)

theorem halts_append_iff :
    p.Halts ty (fields ++ more) fault ↔
      p.Halts ty fields fault ∨
        ∃ reached, p.Leads ty fields reached ∧ p.Halts (reached.getLastD ty) more fault := by
  induction fields generalizing ty with
  | nil =>
      constructor
      · intro h
        exact .inr ⟨[], .nil, h⟩
      · rintro (h | ⟨_, ⟨⟩, h⟩)
        · cases h
        · exact h
  | cons field fields ih =>
      constructor
      · rintro (hfield | ⟨hfield, h⟩)
        · exact .inl (.here hfield)
        · rcases ih.mp h with hfirst | ⟨reached, hreached, hsecond⟩
          · exact .inl (.further hfield hfirst)
          · exact .inr ⟨_ :: reached, .cons hfield hreached, by rwa [List.getLastD_cons]⟩
      · rintro ((hfield | ⟨hfield, hfirst⟩) | ⟨_, _ | ⟨hfield, hreached⟩, hsecond⟩)
        · exact .here hfield
        · exact .further hfield (ih.mpr (.inl hfirst))
        · rw [List.getLastD_cons] at hsecond
          exact .further hfield (ih.mpr (.inr ⟨_, hreached, hsecond⟩))

theorem isFieldFault_of_fieldTy {field : String} (h : p.fieldTy ty field = .error fault) :
    fault.isFieldFault = true := by
  unfold fieldTy at h
  split at h
  · split at h
    · cases h; rfl
    · split at h
      · cases h; rfl
      · split at h
        · cases h
        · split at h
          · cases h
          · cases h; rfl
      · cases h
  · cases h; rfl

theorem Halts.isFieldFault (h : p.Halts ty fields fault) : fault.isFieldFault = true := by
  induction h with
  | here hfield => exact isFieldFault_of_fieldTy hfield
  | further _ _ ih => exact ih

/-! ## Places -/

variable {place : Place}

theorem resolve_eq_ok_iff {r : Resolved} :
    p.resolve place = .ok r ↔
      ∃ ty reached, Binding.tyOf? p.vars place.root = some ty ∧ p.Leads ty place.fields reached ∧
        r = ⟨reached.getLastD ty, (ty :: reached).flatMap Ty.origins⟩ := by
  unfold resolve
  split
  · next ty hvar => simp [walk_eq_ok_iff, hvar]
  · next hvar => simp [hvar]

theorem resolve_eq_error_iff :
    p.resolve place = .error fault ↔
      (Binding.tyOf? p.vars place.root = none ∧
        fault = .unknownVariable place.root (some place.render)) ∨
      ∃ ty, Binding.tyOf? p.vars place.root = some ty ∧ p.Halts ty place.fields fault := by
  unfold resolve
  split
  · next ty hvar => simp [walk_eq_error_iff, hvar]
  · next hvar => simp [hvar, eq_comm]

theorem isSpanFault_of_resolve (h : p.resolve place = .error fault) :
    fault.isSpanFault = false := by
  rcases resolve_eq_error_iff.mp h with ⟨_, rfl⟩ | ⟨ty, _, hhalts⟩
  · rfl
  · exact Fault.isSpanFault_of_isFieldFault hhalts.isFieldFault

end Program

/-- The place with further fields behind its own. -/
def Place.extend (place : Place) (fields : List String) : Place :=
  { place with fields := place.fields ++ fields }

/-- The fault as it is reported for a place. A variable that is not declared is shown with the whole
place; nothing else in a fault depends on it. -/
def Fault.shownAt (place : Place) : Fault → Fault
  | .unknownVariable name _ => .unknownVariable name (some place.render)
  | fault => fault

theorem Fault.shownAt_of_isFieldFault (place : Place) {fault : Fault}
    (h : fault.isFieldFault = true) : fault.shownAt place = fault := by
  cases fault with
  | unknownVariable => cases h
  | _ => rfl

namespace Program

variable {p : Program} {place : Place} {fields : List String}

theorem resolve_extend_eq_ok_iff {r' : Resolved} :
    p.resolve (place.extend fields) = .ok r' ↔
      ∃ r reached, p.resolve place = .ok r ∧ p.Leads r.ty fields reached ∧
        r' = ⟨reached.getLastD r.ty, r.origins ++ reached.flatMap Ty.origins⟩ := by
  rw [resolve_eq_ok_iff]
  constructor
  · rintro ⟨ty, _, hvar, hleads, rfl⟩
    obtain ⟨first, second, rfl, hfirst, hsecond⟩ := leads_append_iff.mp hleads
    refine ⟨_, second, resolve_eq_ok_iff.mpr ⟨ty, first, hvar, hfirst, rfl⟩, hsecond, ?_⟩
    rw [getLastD_append, ← List.cons_append, List.flatMap_append]
  · rintro ⟨_, second, hr, hsecond, rfl⟩
    obtain ⟨ty, first, hvar, hfirst, rfl⟩ := resolve_eq_ok_iff.mp hr
    have hleads := leads_append_iff.mpr ⟨first, second, rfl, hfirst, hsecond⟩
    refine ⟨ty, first ++ second, hvar, hleads, ?_⟩
    rw [getLastD_append, ← List.cons_append, List.flatMap_append]

theorem resolve_extend_eq_error_iff {fault' : Fault} :
    p.resolve (place.extend fields) = .error fault' ↔
      (∃ fault, p.resolve place = .error fault ∧ fault' = fault.shownAt (place.extend fields)) ∨
        ∃ r, p.resolve place = .ok r ∧ p.Halts r.ty fields fault' := by
  rw [resolve_eq_error_iff]
  constructor
  · rintro (⟨hvar, rfl⟩ | ⟨ty, hvar, hhalts⟩)
    · exact .inl ⟨_, resolve_eq_error_iff.mpr (.inl ⟨hvar, rfl⟩), rfl⟩
    · rcases halts_append_iff.mp hhalts with hfirst | ⟨reached, hreached, hsecond⟩
      · refine .inl ⟨fault', resolve_eq_error_iff.mpr (.inr ⟨ty, hvar, hfirst⟩), ?_⟩
        exact (Fault.shownAt_of_isFieldFault _ hfirst.isFieldFault).symm
      · exact .inr ⟨_, resolve_eq_ok_iff.mpr ⟨ty, reached, hvar, hreached, rfl⟩, hsecond⟩
  · rintro (⟨fault, hfault, rfl⟩ | ⟨r, hr, hsecond⟩)
    · rcases resolve_eq_error_iff.mp hfault with ⟨hvar, rfl⟩ | ⟨ty, hvar, hfirst⟩
      · exact .inl ⟨hvar, rfl⟩
      · rw [Fault.shownAt_of_isFieldFault _ hfirst.isFieldFault]
        exact .inr ⟨ty, hvar, halts_append_iff.mpr (.inl hfirst)⟩
    · obtain ⟨ty, reached, hvar, hreached, rfl⟩ := resolve_eq_ok_iff.mp hr
      exact .inr ⟨ty, hvar, halts_append_iff.mpr (.inr ⟨reached, hreached, hsecond⟩)⟩

end Program

/-- A place with further fields resolves exactly if the place does and the fields can be followed
from its type. It has the type at the end of the walk, and the origins of the place followed by
those of each type on the way. If the place fails, so does every extension, by the same fault;
otherwise the extension fails at the first field that cannot be followed. -/
theorem resolve_extend (p : Program) (place : Place) (fields : List String) :
    (∀ r', p.resolve (place.extend fields) = .ok r' ↔
      ∃ r reached, p.resolve place = .ok r ∧ p.Leads r.ty fields reached ∧
        r' = ⟨reached.getLastD r.ty, r.origins ++ reached.flatMap Ty.origins⟩) ∧
    (∀ r r', p.resolve place = .ok r → p.resolve (place.extend fields) = .ok r' →
      r.origins <+: r'.origins) ∧
    ∀ fault', p.resolve (place.extend fields) = .error fault' ↔
      (∃ fault, p.resolve place = .error fault ∧ fault' = fault.shownAt (place.extend fields)) ∨
        ∃ r, p.resolve place = .ok r ∧ p.Halts r.ty fields fault' := by
  refine ⟨fun r' => Program.resolve_extend_eq_ok_iff, ?_,
    fun fault' => Program.resolve_extend_eq_error_iff⟩
  intro r r' hr hr'
  obtain ⟨_, reached, hplace, _, rfl⟩ := Program.resolve_extend_eq_ok_iff.mp hr'
  cases hr.symm.trans hplace
  exact List.prefix_append ..

/-- A list of references. Its tail is a list of whatever `T` is, and no struct is called `T`. -/
def Program.linked : Program where
  vars := [⟨"v", .struct "List" [.origin "'x", .ty (.ref .shared "'y" .i32)]⟩]
  structs :=
    [⟨"List", [.origin "'a", .ty "T"],
      [⟨"head", .struct "T" []⟩,
       ⟨"tail", .struct "List" [.origin "'a", .ty (.struct "T" [])]⟩]⟩]
  blocks := []

/-- The tail of the tail has the origins of the tail and `'a` once more, its head has no fields, and
a variable that is missing is shown with all fields. -/
theorem resolve_extend_linked :
    let p := Program.linked
    let tail : Place := ⟨false, "v", ["tail"]⟩
    (∃ r, p.resolve (tail.extend ["tail"]) = .ok r ∧ ["'x", "'y", "'a"] <+: r.origins ∧
      r.origins = ["'x", "'y", "'a", "'a"]) ∧
    p.resolve (tail.extend ["tail", "head", "f"]) = .error (.unknownStruct "T" "f") ∧
    p.resolve (Place.extend ⟨true, "w", ["tail"]⟩ ["head"]) =
      .error (.unknownVariable "w" (some "*w.tail.head")) := by
  intro p tail
  have htail : p.resolve tail = .ok ⟨.struct "List" [.origin "'a", .ty (.struct "T" [])],
      ["'x", "'y", "'a"]⟩ := rfl
  obtain ⟨hok, hinitial, _⟩ := resolve_extend p tail ["tail"]
  have hmore := (hok _).mpr ⟨_, _, htail, .cons rfl .nil, rfl⟩
  obtain ⟨_, _, hfault⟩ := resolve_extend p tail ["tail", "head", "f"]
  obtain ⟨_, _, hmissing⟩ := resolve_extend p ⟨true, "w", ["tail"]⟩ ["head"]
  refine ⟨⟨_, hmore, hinitial _ _ htail hmore, rfl⟩, ?_, ?_⟩
  · exact (hfault _).mpr (.inr ⟨_, htail, .further rfl (.further rfl (.here rfl))⟩)
  · exact (hmissing _).mpr (.inl ⟨.unknownVariable "w" (some "*w.tail"), rfl, rfl⟩)

end OriginFacts
