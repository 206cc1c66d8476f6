import OriginFacts.Proofs.Document.Loading

/-!
The rules for documents in the order of loading, each at the position that it is about. A position
can have several rules, and only what is there is looked at: the one thing that counts even if it is
missing is the name of a struct or of a block.
-/

namespace OriginFacts.Document

open Surface (TyForm PlaceForm OriginForm SlotForm)

/-! ## Rules -/

/-- What a value can be held to. -/
inductive Rule where
  | kind (expected : Json.Kind)
  | form (form : Surface.Form)
  | has (key : String)
  | oneKind
  | position
  | encodes
  | offsets (source : ByteArray)
  | next (source : ByteArray) (before : List Json)

/-- The value meets the rule. A string whose bytes are asked for has to be a text, and one that
gives the position of a statement has to occur behind the statements before it. -/
def Rule.Met (v : Json) : Rule → Prop
  | .kind expected => v.kind = expected
  | .form .ty => ∃ t, TextOf TyForm v t
  | .form .place => ∃ place, TextOf PlaceForm v place
  | .form .origin => ∃ o, TextOf OriginForm v o
  | .form .slot => ∃ slot, TextOf SlotForm v slot
  | .has key => (v.get? key).isSome = true
  | .oneKind => ∃ kind, OnlyKind v kind
  | .position => (v.get? "span").isSome = true ∨ (v.get? "text").isSome = true
  | .encodes => ¬ ∃ l : LoneString, v = .str (.lone l)
  | .offsets source =>
    ∃ (span : Span) (text : String),
      v = .list [.int span.start, .int span.stop] ∧ span.Covers source text
  | .next source before =>
    ∃ (ss : List Statement) (text : String) (span : Span), Placed source 0 before ss ∧
      v = .str text ∧ text ≠ "" ∧ SpellsNext source (endOf 0 ss) text span

/-- A rule at a position, with the value there. -/
structure Check where
  path : Path
  value : Json
  rule : Rule

def Check.Met (c : Check) : Prop :=
  c.rule.Met c.value

/-! ## The order of loading -/

/-- An object, and then what is inside. -/
def objectChecks (path : Path) (v : Json) (inside : Json.Members → List Check) : List Check :=
  ⟨path, v, .kind .object⟩ ::
    match v with
    | .object members => inside members
    | _ => []

/-- What is under a key, if anything is. -/
def memberChecks (path : Path) (members : Json.Members) (key : String) (rule : Rule) : List Check :=
  (members.get? key).toList.map fun w => ⟨path.key key, w, rule⟩

/-- A missing name counts as null. -/
def nameCheck (path : Path) (members : Json.Members) : Check :=
  ⟨path.key "name", memberOr (.object members) "name" .null, .kind .str⟩

def itemChecks (inside : Path → Json → List Check) (path : Path) (items : List Json) :
    List Check :=
  items.zipIdx.flatMap fun (v, i) => inside (path.index i) v

/-- The type under a name. -/
def bindingCheck (path : Path) (member : RawString × Json) : List Check :=
  match member with
  | (.text name, ty) => [⟨path.key name, ty, .form .ty⟩]
  | (.lone _, _) => []

def bindingChecks (path : Path) (members : Json.Members) : List Check :=
  members.flatMap (bindingCheck path)

/-- The members of the object under a key; none if there is no such object. -/
def membersUnder (key : String) (members : Json.Members) : Json.Members :=
  match members.get? key with
  | some (.object inner) => inner
  | _ => []

def structChecks (path : Path) (v : Json) : List Check :=
  objectChecks path v fun members =>
    [nameCheck path members] ++
    memberChecks path members "generics" (.kind .list) ++
    memberChecks path members "fields" (.kind .object) ++
    itemChecks (fun path w => [⟨path, w, .form .slot⟩]) (path.key "generics")
      (itemsUnder "generics" (.object members)) ++
    bindingChecks (path.key "fields") (membersUnder "fields" members)

mutual

/-- An expression before its parts, an origin before the place that is borrowed. -/
def exprChecks (path : Path) : Json → List Check
  | .object members =>
    [⟨path, .object members, .kind .object⟩, ⟨path, .object members, .oneKind⟩] ++
    match kindsOf members with
    | [.borrow m] =>
      [⟨path, .object members, .has "origin"⟩] ++
      memberChecks path members "origin" (.form .origin) ++
      memberChecks path members (ExprKind.borrow m).key (.form .place)
    | [.copy] => memberChecks path members ExprKind.copy.key (.form .place)
    | [.move] => memberChecks path members ExprKind.move.key (.form .place)
    | [.call] =>
      memberChecks path members "call" (.kind .str) ++ argsMemberChecks (path.key "args") members
    | [.number] => memberChecks path members "number" (.kind .int)
    | _ => []
  | v => [⟨path, v, .kind .object⟩]

/-- The list under the first key `args`, and then its items. -/
def argsMemberChecks (path : Path) : List (RawString × Json) → List Check
  | [] => []
  | (key, value) :: members =>
    if key = .text "args" then
      match value with
      | .list items => ⟨path, .list items, .kind .list⟩ :: argChecks path 0 items
      | v => [⟨path, v, .kind .list⟩]
    else argsMemberChecks path members

def argChecks (path : Path) (i : Nat) : List Json → List Check
  | [] => []
  | item :: items => exprChecks (path.index i) item ++ argChecks path (i + 1) items

end

/-- The text of a statement is not looked at if it has offsets. -/
def positionChecks (source : ByteArray) (before : List Json) (path : Path)
    (members : Json.Members) : List Check :=
  ⟨path, .object members, .position⟩ ::
    match members.get? "span" with
    | some span => [⟨path.key "span", span, .offsets source⟩]
    | none =>
      memberChecks path members "text" .encodes ++
      memberChecks path members "text" (.next source before)

def statementChecks (source : ByteArray) (before : List Json) (path : Path) (v : Json) :
    List Check :=
  objectChecks path v fun members =>
    [⟨path, v, .has "expr"⟩] ++
    (members.get? "expr").toList.flatMap (exprChecks (path.key "expr")) ++
    positionChecks source before path members ++
    memberChecks path members "assign" (.form .place)

/-- Statements from the index `i` on, behind those before them. -/
def statementListChecks (source : ByteArray) (before : List Json) (path : Path) (i : Nat) :
    List Json → List Check
  | [] => []
  | item :: items =>
    statementChecks source before (path.index i) item ++
      statementListChecks source (before ++ [item]) path (i + 1) items

def blockChecks (source : ByteArray) (before : List Json) (path : Path) (v : Json) : List Check :=
  objectChecks path v fun members =>
    [nameCheck path members] ++
    memberChecks path members "statements" (.kind .list) ++
    memberChecks path members "successors" (.kind .list) ++
    itemChecks (fun path w => [⟨path, w, .kind .str⟩]) (path.key "successors")
      (itemsUnder "successors" (.object members)) ++
    statementListChecks source before (path.key "statements") 0
      (itemsUnder "statements" (.object members))

/-- Blocks from the index `i` on. The statements before a block are those of all blocks before. -/
def blockListChecks (source : ByteArray) (before : List Json) (path : Path) (i : Nat) :
    List Json → List Check
  | [] => []
  | item :: items =>
    blockChecks source before (path.index i) item ++
      blockListChecks source (before ++ itemsUnder "statements" item) path (i + 1) items

/-- The source of a document, unless another one is given. -/
def givenSource (doc : Json) : Option RawString → RawString
  | some source => source
  | none =>
    match memberOr doc "source" (.str "") with
    | .str source => source
    | _ => .text ""

/-- The text that a string is; empty if it is none. -/
def textOf : RawString → String
  | .text text => text
  | .lone _ => ""

/-- The source that positions are about. -/
def sourceOf (doc : Json) (override : Option RawString) : String :=
  textOf (givenSource doc override)

/-- All checks of a document. Its own source is not looked at if another one is given; the source
that counts is turned into bytes before anything else is looked at from inside. -/
def checks (doc : Json) (override : Option RawString) : List Check :=
  let root : Path := []
  objectChecks root doc fun members =>
    (if override.isSome then [] else memberChecks root members "source" (.kind .str)) ++
    memberChecks root members "variables" (.kind .object) ++
    memberChecks root members "structs" (.kind .list) ++
    memberChecks root members "blocks" (.kind .list) ++
    [⟨root.key "source", .str (givenSource doc override), .encodes⟩] ++
    bindingChecks (root.key "variables") (membersUnder "variables" members) ++
    itemChecks structChecks (root.key "structs") (itemsUnder "structs" (.object members)) ++
    blockListChecks (sourceOf doc override).toUTF8 [] (root.key "blocks") 0
      (itemsUnder "blocks" (.object members))

/-! ## Positions -/

/-- The value at a position. -/
inductive At (doc : Json) : Path → Json → Prop where
  | root : At doc [] doc
  | key {path : Path} {members : Json.Members} {key : String} {v : Json} :
      At doc path (.object members) → (.text key, v) ∈ members → At doc (path.key key) v
  | index {path : Path} {items : List Json} {i : Nat} {v : Json} :
      At doc path (.list items) → items[i]? = some v → At doc (path.index i) v

/-- The value of a check is the one at its position. Only a name may be missing. -/
def Check.Stands (doc : Json) (c : Check) : Prop :=
  At doc c.path c.value ∨
    ∃ (path : Path) (members : Json.Members), At doc path (.object members) ∧
      members.get? "name" = none ∧ c.path = path.key "name" ∧ c.value = .null

/-- A text to be found is that of a statement, and is looked for in the source and behind the
statements that come first. Bytes are asked of such texts, and of the source itself. -/
def Check.Follows (doc : Json) (override : Option RawString) (c : Check) : Prop :=
  match c.rule with
  | .encodes =>
    c.value = .str (givenSource doc override) ∨
      ∃ item ∈ statementsOf doc, item.get? "span" = none ∧ item.get? "text" = some c.value
  | .next source before =>
    source = (sourceOf doc override).toUTF8 ∧
      ∃ item rest, statementsOf doc = before ++ item :: rest ∧
        item.get? "span" = none ∧ item.get? "text" = some c.value
  | _ => True

/-- The check is about the document. Only a source that is given apart from it has no place in it.
-/
structure Check.Belongs (doc : Json) (override : Option RawString) (c : Check) : Prop where
  stands : c.rule = .encodes ∨ c.Stands doc
  follows : c.Follows doc override

section

variable {doc : Json} {override : Option RawString} {path : Path} {members : Json.Members}

theorem At.member (h : At doc path (.object members)) {key : String} {w : Json}
    (hkey : members.get? key = some w) : At doc (path.key key) w := by
  obtain ⟨front, back, rfl, _⟩ := List.lookup_eq_some_iff.mp hkey
  exact h.key (by simp)

/-- The items are those of the list at the position from the index `i` on. -/
def AtEach (doc : Json) (path : Path) (i : Nat) (items : List Json) : Prop :=
  ∀ (j : Nat) (w : Json), items[j]? = some w → At doc (path.index (i + j)) w

theorem AtEach.head {i : Nat} {item : Json} {items : List Json}
    (h : AtEach doc path i (item :: items)) : At doc (path.index i) item :=
  h 0 item rfl

theorem AtEach.tail {i : Nat} {item : Json} {items : List Json}
    (h : AtEach doc path i (item :: items)) : AtEach doc path (i + 1) items := by
  intro j w hw
  have hnext := h (j + 1) w hw
  rwa [← Nat.add_assoc, Nat.add_right_comm] at hnext

theorem At.each {items : List Json} (h : At doc path (.list items)) : AtEach doc path 0 items := by
  intro j w hw
  rw [Nat.zero_add]
  exact h.index hw

theorem At.items (h : At doc path (.object members)) (key : String) :
    AtEach doc (path.key key) 0 (itemsUnder key (.object members)) := by
  unfold itemsUnder
  split
  · next items hitems => exact (h.member hitems).each
  · intro j w hw
    cases hw

theorem At.inner (h : At doc path (.object members)) {key name : String} {w : Json}
    (hmember : (.text name, w) ∈ membersUnder key members) :
    At doc ((path.key key).key name) w := by
  unfold membersUnder at hmember
  split at hmember
  · next inner hinner => exact (h.member hinner).key hmember
  · cases hmember

theorem At.belongs {v : Json} {rule : Rule} (h : At doc path v)
    (hrule : Check.Follows doc override ⟨path, v, rule⟩) :
    (Check.mk path v rule).Belongs doc override :=
  ⟨.inr (.inl h), hrule⟩

theorem belongs_objectChecks {v : Json} {inside : Json.Members → List Check} (h : At doc path v)
    (hinside : ∀ members, v = .object members → ∀ c ∈ inside members, c.Belongs doc override) :
    ∀ c ∈ objectChecks path v inside, c.Belongs doc override := by
  refine List.forall_mem_cons.mpr ⟨h.belongs trivial, ?_⟩
  split
  · next members => exact hinside members rfl
  · exact List.forall_mem_nil _

theorem belongs_memberChecks (h : At doc path (.object members)) {key : String} {rule : Rule}
    (hrule : ∀ w, members.get? key = some w → Check.Follows doc override ⟨path.key key, w, rule⟩) :
    ∀ c ∈ memberChecks path members key rule, c.Belongs doc override := by
  intro c hc
  obtain ⟨w, hw, rfl⟩ := List.mem_map.mp hc
  have hkey := Option.mem_toList.mp hw
  exact (h.member hkey).belongs (hrule w hkey)

theorem belongs_nameCheck (h : At doc path (.object members)) :
    (nameCheck path members).Belongs doc override := by
  refine ⟨?_, trivial⟩
  cases hname : members.get? "name" with
  | some w =>
      have hvalue : (nameCheck path members).value = w := by
        show (members.get? "name").getD .null = w
        rw [hname]
        rfl
      exact .inr (.inl (hvalue ▸ h.member hname))
  | none =>
      have hvalue : (nameCheck path members).value = .null := by
        show (members.get? "name").getD .null = .null
        rw [hname]
        rfl
      exact .inr (.inr ⟨path, members, h, hname, rfl, hvalue⟩)

theorem belongs_itemChecks {items : List Json} {inside : Path → Json → List Check}
    (h : AtEach doc path 0 items)
    (hinside : ∀ path v, At doc path v → ∀ c ∈ inside path v, c.Belongs doc override) :
    ∀ c ∈ itemChecks inside path items, c.Belongs doc override := by
  intro c hc
  obtain ⟨⟨w, i⟩, hw, hc⟩ := List.mem_flatMap.mp hc
  have hitem := h i w (List.mk_mem_zipIdx_iff_getElem?.mp hw)
  rw [Nat.zero_add] at hitem
  exact hinside _ w hitem c hc

theorem belongs_singleton {v : Json} {rule : Rule} (h : At doc path v)
    (hrule : Check.Follows doc override ⟨path, v, rule⟩) :
    ∀ c ∈ [Check.mk path v rule], c.Belongs doc override :=
  List.forall_mem_singleton.mpr (h.belongs hrule)

theorem belongs_bindingChecks
    (h : ∀ (name : String) (w : Json), (.text name, w) ∈ members → At doc (path.key name) w) :
    ∀ c ∈ bindingChecks path members, c.Belongs doc override := by
  intro c hc
  obtain ⟨⟨key, w⟩, hw, hc⟩ := List.mem_flatMap.mp hc
  cases key with
  | text name =>
      have hform : Check.Follows doc override ⟨path.key name, w, .form .ty⟩ := trivial
      exact belongs_singleton (h name w hw) hform c hc
  | lone => cases hc

theorem belongs_structChecks {v : Json} (h : At doc path v) :
    ∀ c ∈ structChecks path v, c.Belongs doc override := by
  refine belongs_objectChecks h ?_
  rintro members rfl
  simp only [List.forall_mem_append, List.forall_mem_singleton]
  refine ⟨⟨⟨⟨belongs_nameCheck h, ?_⟩, ?_⟩, ?_⟩, belongs_bindingChecks fun _ _ => h.inner⟩
  · exact belongs_memberChecks h fun _ _ => trivial
  · exact belongs_memberChecks h fun _ _ => trivial
  · exact belongs_itemChecks (h.items _) fun _ _ hw => belongs_singleton hw trivial

end

mutual

theorem belongs_exprChecks {doc : Json} {override : Option RawString} : (v : Json) → {path : Path} →
    At doc path v → ∀ c ∈ exprChecks path v, c.Belongs doc override
  | .object members, path, h => by
      unfold exprChecks
      simp only [List.forall_mem_append, List.forall_mem_cons]
      refine ⟨⟨h.belongs trivial, h.belongs trivial, List.forall_mem_nil _⟩, ?_⟩
      split
      · simp only [List.forall_mem_append, List.forall_mem_singleton]
        refine ⟨⟨h.belongs trivial, ?_⟩, ?_⟩
        · exact belongs_memberChecks h fun _ _ => trivial
        · exact belongs_memberChecks h fun _ _ => trivial
      · exact belongs_memberChecks h fun _ _ => trivial
      · exact belongs_memberChecks h fun _ _ => trivial
      · refine List.forall_mem_append.mpr ⟨belongs_memberChecks h fun _ _ => trivial, ?_⟩
        exact belongs_argsMemberChecks members fun _ hw => h.key hw
      · exact belongs_memberChecks h fun _ _ => trivial
      · exact List.forall_mem_nil _
  | .null, _, h => belongs_singleton h trivial
  | .bool _, _, h => belongs_singleton h trivial
  | .int _, _, h => belongs_singleton h trivial
  | .float _, _, h => belongs_singleton h trivial
  | .str _, _, h => belongs_singleton h trivial
  | .list _, _, h => belongs_singleton h trivial

theorem belongs_argsMemberChecks {doc : Json} {override : Option RawString} :
    (members : List (RawString × Json)) → {path : Path} →
      (∀ w, (.text "args", w) ∈ members → At doc path w) →
        ∀ c ∈ argsMemberChecks path members, c.Belongs doc override
  | [], _, _ => List.forall_mem_nil _
  | (key, value) :: members, path, h => by
      unfold argsMemberChecks
      split
      · next hkey =>
        subst hkey
        have hvalue := h value (List.mem_cons_self ..)
        split
        · next items =>
          exact List.forall_mem_cons.mpr
            ⟨hvalue.belongs trivial, belongs_argChecks items hvalue.each⟩
        · exact belongs_singleton hvalue trivial
      · exact belongs_argsMemberChecks members fun w hw => h w (List.mem_cons_of_mem _ hw)

theorem belongs_argChecks {doc : Json} {override : Option RawString} : (items : List Json) →
    {path : Path} → {i : Nat} → AtEach doc path i items →
      ∀ c ∈ argChecks path i items, c.Belongs doc override
  | [], _, _, _ => List.forall_mem_nil _
  | item :: items, path, i, h => by
      unfold argChecks
      exact List.forall_mem_append.mpr
        ⟨belongs_exprChecks item h.head, belongs_argChecks items h.tail⟩

end

section

-- The statements of the document are those before, those in the list, and the rest.
variable {doc : Json} {override : Option RawString} {before rest : List Json} {path : Path}

theorem belongs_positionChecks {members : Json.Members} (h : At doc path (.object members))
    (hrest : statementsOf doc = before ++ .object members :: rest) :
    ∀ c ∈ positionChecks (sourceOf doc override).toUTF8 before path members,
      c.Belongs doc override := by
  refine List.forall_mem_cons.mpr ⟨h.belongs trivial, ?_⟩
  split
  · next span hspan => exact belongs_singleton (h.member hspan) trivial
  · next hspan =>
    have hitem : .object members ∈ statementsOf doc := by simp [hrest]
    refine List.forall_mem_append.mpr ⟨belongs_memberChecks h ?_, belongs_memberChecks h ?_⟩
    · intro text htext
      exact .inr ⟨.object members, hitem, hspan, htext⟩
    · intro text htext
      exact ⟨rfl, .object members, rest, hrest, hspan, htext⟩

theorem belongs_statementChecks {v : Json} (h : At doc path v)
    (hrest : statementsOf doc = before ++ v :: rest) :
    ∀ c ∈ statementChecks (sourceOf doc override).toUTF8 before path v,
      c.Belongs doc override := by
  refine belongs_objectChecks h ?_
  rintro members rfl
  simp only [List.forall_mem_append, List.forall_mem_singleton]
  refine ⟨⟨⟨h.belongs trivial, ?_⟩, belongs_positionChecks h hrest⟩, ?_⟩
  · intro c hc
    obtain ⟨e, he, hc⟩ := List.mem_flatMap.mp hc
    exact belongs_exprChecks e (h.member (Option.mem_toList.mp he)) c hc
  · exact belongs_memberChecks h fun _ _ => trivial

theorem belongs_statementListChecks {i : Nat} {items : List Json} (h : AtEach doc path i items)
    (hrest : statementsOf doc = before ++ (items ++ rest)) :
    ∀ c ∈ statementListChecks (sourceOf doc override).toUTF8 before path i items,
      c.Belongs doc override := by
  induction items generalizing before i with
  | nil => exact List.forall_mem_nil _
  | cons item items ih =>
      have hnext : statementsOf doc = (before ++ [item]) ++ (items ++ rest) := by simp [hrest]
      exact List.forall_mem_append.mpr ⟨belongs_statementChecks h.head hrest, ih h.tail hnext⟩

theorem belongs_blockChecks {v : Json} (h : At doc path v)
    (hrest : statementsOf doc = before ++ (itemsUnder "statements" v ++ rest)) :
    ∀ c ∈ blockChecks (sourceOf doc override).toUTF8 before path v,
      c.Belongs doc override := by
  refine belongs_objectChecks h ?_
  rintro members rfl
  simp only [List.forall_mem_append, List.forall_mem_singleton]
  refine ⟨⟨⟨⟨belongs_nameCheck h, ?_⟩, ?_⟩, ?_⟩, belongs_statementListChecks (h.items _) hrest⟩
  · exact belongs_memberChecks h fun _ _ => trivial
  · exact belongs_memberChecks h fun _ _ => trivial
  · exact belongs_itemChecks (h.items _) fun _ _ hw => belongs_singleton hw trivial

theorem belongs_blockListChecks {i : Nat} {items : List Json} (h : AtEach doc path i items)
    (hrest : statementsOf doc = before ++ (items.flatMap (itemsUnder "statements") ++ rest)) :
    ∀ c ∈ blockListChecks (sourceOf doc override).toUTF8 before path i items,
      c.Belongs doc override := by
  induction items generalizing before i with
  | nil => exact List.forall_mem_nil _
  | cons item items ih =>
      rw [List.flatMap_cons, List.append_assoc] at hrest
      refine List.forall_mem_append.mpr ⟨belongs_blockChecks h.head hrest, ih h.tail ?_⟩
      rw [hrest, List.append_assoc]

end

theorem belongs_checks (doc : Json) (override : Option RawString) :
    ∀ c ∈ checks doc override, c.Belongs doc override := by
  refine belongs_objectChecks .root ?_
  rintro members rfl
  have h : At (.object members) [] (.object members) := .root
  simp only [List.forall_mem_append, List.forall_mem_singleton]
  refine ⟨⟨⟨⟨⟨⟨⟨?_, ?_⟩, ?_⟩, ?_⟩, ⟨.inl rfl, .inl rfl⟩⟩, belongs_bindingChecks fun _ _ => h.inner⟩,
    belongs_itemChecks (h.items _) fun _ _ => belongs_structChecks⟩, ?_⟩
  · split
    · exact List.forall_mem_nil _
    · exact belongs_memberChecks h fun _ _ => trivial
  · exact belongs_memberChecks h fun _ _ => trivial
  · exact belongs_memberChecks h fun _ _ => trivial
  · exact belongs_memberChecks h fun _ _ => trivial
  · exact belongs_blockListChecks (h.items _) (List.append_nil _).symm

end OriginFacts.Document
