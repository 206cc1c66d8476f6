import OriginFacts.Proofs.Json.Scalars
import OriginFacts.Proofs.Keyed

/-!
JSON text reads back as the value that it was written for, if all numbers of the value are whole and
not too long, all strings and keys are texts, and no object has a key twice. Two surrogates that
stand next to each other would come back as one character.
-/

namespace OriginFacts.Json

/-! ## Values -/

mutual

/-- All numbers are whole and can be read, all strings are texts, and no object has a key twice. -/
def Plain : Json → Prop
  | .int n => Readable n
  | .float _ => False
  | .str (.lone _) => False
  | .list items => PlainItems items
  | .object members => (members.map (·.1)).Nodup ∧ PlainMembers members
  | _ => True

def PlainItems : List Json → Prop
  | [] => True
  | item :: items => item.Plain ∧ PlainItems items

def PlainMembers : List (RawString × Json) → Prop
  | [] => True
  | (.text _, value) :: members => value.Plain ∧ PlainMembers members
  | (.lone _, _) :: _ => False

end

theorem render_int (n : Int) : (int n).render = n.repr := by
  rw [render]
  rfl

theorem toList_renderString (text : String) :
    (renderString text).toList = '"' :: (text.toList.flatMap renderChar ++ ['"']) := by
  rw [renderString, String.toList_ofList, RawString.points, List.flatMap_map]
  rfl

theorem toList_render_str (text : String) :
    (str text).render.toList = '"' :: (text.toList.flatMap renderChar ++ ['"']) := by
  rw [render, toList_renderString]

theorem toList_render_list (items : List Json) :
    (list items).render.toList = '[' :: ((renderItems items).toList ++ [']']) := by
  rw [render, String.toList_append, String.toList_append]
  rfl

theorem toList_render_object (members : Members) :
    (object members).render.toList = '\x7b' :: ((renderMembers members).toList ++ ['\x7d']) := by
  rw [render, String.toList_append, String.toList_append]
  rfl

/-- A value starts with none of these. -/
def IsStart (c : Char) : Prop :=
  c ∉ [' ', '\t', '\n', '\r', ']', '\uFEFF']

instance (c : Char) : Decidable (IsStart c) :=
  inferInstanceAs (Decidable (c ∉ _))

theorem exists_start {v : Json} (h : v.Plain) :
    ∃ c tail, v.render.toList = c :: tail ∧ IsStart c := by
  cases v with
  | null => exact ⟨'n', _, rfl, by decide⟩
  | bool value =>
      cases value with
      | true => exact ⟨'t', _, rfl, by decide⟩
      | false => exact ⟨'f', _, rfl, by decide⟩
  | int n =>
      obtain ⟨c, tail, htail, hc⟩ := Decimal.exists_start_repr n
      rw [render_int]
      exact ⟨c, tail, htail, Decimal.notMem_of_start hc rfl⟩
  | float => exact h.elim
  | str s =>
      cases s with
      | text text => exact ⟨'"', _, toList_render_str text, by decide⟩
      | lone => exact h.elim
  | list items => exact ⟨'[', _, toList_render_list items, by decide⟩
  | object members => exact ⟨'\x7b', _, toList_render_object members, by decide⟩

theorem toList_renderItems_cons (item next : Json) (items : List Json) :
    (renderItems (item :: next :: items)).toList =
      item.render.toList ++ ',' :: ' ' :: (renderItems (next :: items)).toList := by
  rw [renderItems, String.toList_append, String.toList_append]
  · simp
  · simp

theorem exists_start_items {item : Json} (h : item.Plain) (items : List Json) :
    ∃ c tail, (renderItems (item :: items)).toList = c :: tail ∧ IsStart c := by
  obtain ⟨c, tail, htail, hc⟩ := exists_start h
  cases items with
  | nil => exact ⟨c, tail, htail, hc⟩
  | cons next items =>
      rw [toList_renderItems_cons, htail]
      exact ⟨c, _, rfl, hc⟩

theorem toList_renderMembers_one (key : String) (value : Json) :
    (renderMembers [(.text key, value)]).toList =
      '"' :: (key.toList.flatMap renderChar ++ '"' :: ':' :: ' ' :: value.render.toList) := by
  simp [renderMembers, toList_renderString]

theorem toList_renderMembers_cons (key : String) (value : Json) (next : RawString × Json)
    (members : Members) :
    (renderMembers ((.text key, value) :: next :: members)).toList =
      '"' :: (key.toList.flatMap renderChar ++ '"' :: ':' :: ' ' :: (value.render.toList ++
        ',' :: ' ' :: (renderMembers (next :: members)).toList)) := by
  rw [renderMembers]
  · simp [toList_renderString]
  · simp

theorem exists_start_members (key : String) (value : Json) (members : Members) :
    ∃ tail, (renderMembers ((.text key, value) :: members)).toList = '"' :: tail := by
  cases members with
  | nil => exact ⟨_, toList_renderMembers_one key value⟩
  | cons next members => exact ⟨_, toList_renderMembers_cons key value next members⟩

/-- The first key of an object is a text, like all of them. -/
theorem PlainMembers.exists_key {member : RawString × Json} {members : Members}
    (h : PlainMembers (member :: members)) :
    ∃ key value, member = (.text key, value) ∧ value.Plain ∧ PlainMembers members := by
  obtain ⟨_ | _, value⟩ := member
  · exact ⟨_, value, rfl, h⟩
  · exact h.elim

/-! ## Steps of the reader -/

theorem skipBlanks_of_start {c : Char} (h : IsStart c) (tail : List Char) :
    skipBlanks (c :: tail) = c :: tail := by
  simp [IsStart] at h
  simp [skipBlanks, h]

section

variable {fuel : Nat} {text next rest : List Char} {item value : Json} {items : List Json}
  {key : String} {members : Members}

theorem readItems_last (h : readValue fuel text = .ok (item, ']' :: rest)) :
    readItems (fuel + 1) text = .ok ([item], rest) := by
  rw [readItems, h]
  rfl

theorem readItems_more (h : readValue fuel text = .ok (item, ',' :: ' ' :: next))
    (hnext : skipBlanks next = next) (hitems : readItems fuel next = .ok (items, rest)) :
    readItems (fuel + 1) text = .ok (item :: items, rest) := by
  have hblank : skipBlanks (' ' :: next) = next := hnext
  rw [readItems, h]
  change (readItems fuel (skipBlanks (' ' :: next)) >>= _) = _
  rw [hblank, hitems]
  rfl

theorem readMembers_last (hblank : skipBlanks text = text)
    (h : readValue fuel text = .ok (value, '\x7d' :: rest)) :
    readMembers (fuel + 1)
      ('"' :: (key.toList.flatMap renderChar ++ '"' :: ':' :: ' ' :: text)) =
      .ok ([(.text key, value)], rest) := by
  have htext : skipBlanks (' ' :: text) = text := hblank
  rw [readMembers, readString_flatMap]
  change (readValue fuel (skipBlanks (' ' :: text)) >>= _) = _
  rw [htext, h]
  rfl

theorem readMembers_more (hblank : skipBlanks text = text)
    (h : readValue fuel text = .ok (value, ',' :: ' ' :: next)) (hnext : skipBlanks next = next)
    (hmembers : readMembers fuel next = .ok (members, rest)) :
    readMembers (fuel + 1)
      ('"' :: (key.toList.flatMap renderChar ++ '"' :: ':' :: ' ' :: text)) =
      .ok ((.text key, value) :: members, rest) := by
  have htext : skipBlanks (' ' :: text) = text := hblank
  have hrest : skipBlanks (' ' :: next) = next := hnext
  rw [readMembers, readString_flatMap]
  change (readValue fuel (skipBlanks (' ' :: text)) >>= _) = _
  rw [htext, h]
  change (readMembers fuel (skipBlanks (' ' :: next)) >>= _) = _
  rw [hrest, hmembers]
  rfl

theorem readValue_str (text : String) (rest : List Char) :
    readValue (fuel + 1) ((str text).render.toList ++ rest) = .ok (.str text, rest) := by
  rw [toList_render_str, List.cons_append, List.append_assoc, List.cons_append, List.nil_append,
    readValue, readString_flatMap]
  rfl

theorem readValue_list {c : Char} {tail : List Char} (hc : IsStart c)
    (h : readItems fuel (c :: tail) = .ok (items, rest)) :
    readValue (fuel + 1) ('[' :: c :: tail) = .ok (.list items, rest) := by
  rw [readValue, skipBlanks_of_start hc]
  split
  · next hbracket =>
    obtain ⟨rfl, _⟩ := List.cons.inj hbracket
    exact absurd hc (by decide)
  · rw [h]
    rfl

theorem readValue_object {tail : List Char} (hkeys : (members.map (·.1)).Nodup)
    (h : readMembers fuel ('"' :: tail) = .ok (members, rest)) :
    readValue (fuel + 1) ('\x7b' :: '"' :: tail) = .ok (.object members, rest) := by
  rw [readValue]
  change (readMembers fuel ('"' :: tail) >>= _) = _
  rw [h]
  change Except.ok (Json.object (Keyed.ofList members), rest) = _
  rw [Keyed.ofList_of_nodup hkeys]

theorem readValue_scalar {c : Char} {tail : List Char} (hc : c ∉ ['"', '[', '\x7b']) :
    readValue (fuel + 1) (c :: tail) = readScalar (c :: tail) := by
  rw [readValue]
  · rintro _ ⟨⟩
    exact hc (by decide)
  · rintro _ ⟨⟩
    exact hc (by decide)
  · rintro _ ⟨⟩
    exact hc (by decide)

theorem readValue_int {n : Int} (hn : Readable n) (hrest : Ends rest) :
    readValue (fuel + 1) ((int n).render.toList ++ rest) = .ok (.int n, rest) := by
  have hscalar := readScalar_repr hn hrest
  obtain ⟨c, tail, htail, hc⟩ := Decimal.exists_start_repr n
  rw [htail] at hscalar
  rw [render_int, htail]
  rw [List.cons_append, readValue_scalar (Decimal.notMem_of_start hc rfl), ← hscalar,
    List.cons_append]

end

theorem ends_cons {c : Char} (hc : c.isDigit = false ∧ c ∉ ['.', 'e', 'E']) (rest : List Char) :
    Ends (c :: rest) := by
  rintro d ⟨⟩
  exact hc

/-! ## Reading what was written -/

/-- With so many steps, every text that is not too long reads back as what it was written for. A
value takes one step for itself and one as an item or member. -/
structure ReadsBack (fuel : Nat) : Prop where
  value : ∀ (v : Json) (rest : List Char), v.Plain → 2 * v.render.toList.length ≤ fuel + 1 →
    Ends rest → readValue fuel (v.render.toList ++ rest) = .ok (v, rest)
  items : ∀ (item : Json) (items : List Json) (rest : List Char), PlainItems (item :: items) →
    2 * (renderItems (item :: items)).toList.length ≤ fuel →
      readItems fuel ((renderItems (item :: items)).toList ++ ']' :: rest) =
        .ok (item :: items, rest)
  members : ∀ (member : RawString × Json) (members : Members) (rest : List Char),
    PlainMembers (member :: members) →
    2 * (renderMembers (member :: members)).toList.length ≤ fuel →
      readMembers fuel ((renderMembers (member :: members)).toList ++ '\x7d' :: rest) =
        .ok (member :: members, rest)

namespace ReadsBack

variable {fuel : Nat} (hback : ReadsBack fuel) (rest : List Char)

include hback

theorem value_succ {v : Json} (h : v.Plain) (hfuel : 2 * v.render.toList.length ≤ fuel + 2)
    (hrest : Ends rest) : readValue (fuel + 1) (v.render.toList ++ rest) = .ok (v, rest) := by
  cases v with
  | null => rfl
  | bool value => cases value <;> rfl
  | int n => exact readValue_int h hrest
  | float => exact h.elim
  | str s =>
      cases s with
      | text text => exact readValue_str text rest
      | lone => exact h.elim
  | list items =>
      cases items with
      | nil => rfl
      | cons item items =>
          rw [toList_render_list] at hfuel ⊢
          simp only [List.length_cons, List.length_append] at hfuel
          have hitems := hback.items item items rest h (by omega)
          obtain ⟨c, tail, htail, hc⟩ := exists_start_items h.1 items
          rw [htail] at hitems ⊢
          simpa using readValue_list hc hitems
  | object members =>
      cases members with
      | nil => rfl
      | cons member members =>
          rw [toList_render_object] at hfuel ⊢
          simp only [List.length_cons, List.length_append] at hfuel
          have hmembers := hback.members member members rest h.2 (by omega)
          obtain ⟨key, value, rfl, _⟩ := h.2.exists_key
          obtain ⟨tail, htail⟩ := exists_start_members key value members
          rw [htail] at hmembers ⊢
          simpa using readValue_object h.1 hmembers

theorem items_succ {item : Json} {items : List Json} (h : PlainItems (item :: items))
    (hfuel : 2 * (renderItems (item :: items)).toList.length ≤ fuel + 1) :
    readItems (fuel + 1) ((renderItems (item :: items)).toList ++ ']' :: rest) =
      .ok (item :: items, rest) := by
  cases items with
  | nil => exact readItems_last (hback.value item _ h.1 hfuel (ends_cons (by decide) rest))
  | cons next items =>
      obtain ⟨c, tail, htail, hc⟩ := exists_start_items h.2.1 items
      rw [toList_renderItems_cons] at hfuel ⊢
      simp only [List.length_append, List.length_cons] at hfuel
      have hitem := hback.value item
        (',' :: ' ' :: ((renderItems (next :: items)).toList ++ ']' :: rest)) h.1 (by omega)
        (ends_cons (by decide) _)
      have hitems := hback.items next items rest h.2 (by omega)
      have hblank := skipBlanks_of_start hc (tail ++ ']' :: rest)
      rw [← List.cons_append, ← htail] at hblank
      simpa using readItems_more hitem hblank hitems

theorem members_succ {member : RawString × Json} {members : Members}
    (h : PlainMembers (member :: members))
    (hfuel : 2 * (renderMembers (member :: members)).toList.length ≤ fuel + 1) :
    readMembers (fuel + 1) ((renderMembers (member :: members)).toList ++ '\x7d' :: rest) =
      .ok (member :: members, rest) := by
  obtain ⟨key, value, rfl, hvalue, hrest⟩ := h.exists_key
  obtain ⟨c, tail, htail, hc⟩ := exists_start hvalue
  have hblank : ∀ text, skipBlanks (value.render.toList ++ text) = value.render.toList ++ text := by
    intro text
    rw [htail]
    exact skipBlanks_of_start hc (tail ++ text)
  cases members with
  | nil =>
      rw [toList_renderMembers_one] at hfuel ⊢
      simp only [List.length_append, List.length_cons] at hfuel
      have hread := hback.value value ('\x7d' :: rest) hvalue (by omega) (ends_cons (by decide) _)
      simpa using readMembers_last (hblank _) hread
  | cons next members =>
      obtain ⟨nextKey, nextValue, rfl, _⟩ := hrest.exists_key
      obtain ⟨other, hother⟩ := exists_start_members nextKey nextValue members
      rw [toList_renderMembers_cons] at hfuel ⊢
      simp only [List.length_append, List.length_cons] at hfuel
      have hread := hback.value value
        (',' :: ' ' :: ((renderMembers ((.text nextKey, nextValue) :: members)).toList ++
          '\x7d' :: rest)) hvalue (by omega) (ends_cons (by decide) _)
      have hmembers := hback.members (.text nextKey, nextValue) members rest hrest (by omega)
      have hnext := skipBlanks_of_start (c := '"') (by decide) (other ++ '\x7d' :: rest)
      rw [← List.cons_append, ← hother] at hnext
      simpa using readMembers_more (hblank _) hread hnext hmembers

end ReadsBack

theorem readsBack (fuel : Nat) : ReadsBack fuel := by
  induction fuel with
  | zero =>
      refine ⟨fun v _ h hfuel _ => ?_, fun item items _ h hfuel => ?_,
        fun member members _ hmembers hfuel => ?_⟩
      · obtain ⟨c, tail, htail, _⟩ := exists_start h
        rw [htail, List.length_cons] at hfuel
        omega
      · obtain ⟨c, tail, htail, _⟩ := exists_start_items h.1 items
        rw [htail, List.length_cons] at hfuel
        omega
      · obtain ⟨key, value, rfl, _⟩ := hmembers.exists_key
        obtain ⟨tail, htail⟩ := exists_start_members key value members
        rw [htail, List.length_cons] at hfuel
        omega
  | succ fuel ih =>
      exact ⟨fun _ rest h hfuel hrest => ih.value_succ rest h hfuel hrest,
        fun _ _ rest h hfuel => ih.items_succ rest h hfuel,
        fun _ _ rest h hfuel => ih.members_succ rest h hfuel⟩

theorem readText_render {v : Json} (h : v.Plain) :
    readText (v.render.toList ++ ['\n']) = .ok v := by
  obtain ⟨c, tail, htail, hc⟩ := exists_start h
  have hfuel : 2 * v.render.toList.length ≤ 2 * (v.render.toList ++ ['\n']).length + 1 + 1 := by
    rw [List.length_append]
    omega
  have hvalue := (readsBack _).value v ['\n'] h hfuel (ends_cons (by decide) [])
  have hblank := skipBlanks_of_start hc (tail ++ ['\n'])
  rw [htail, List.cons_append] at hvalue ⊢
  rw [readText, hblank, hvalue]
  · rfl
  · rintro _ ⟨⟩
    exact absurd hc (by decide)

/-- What is written as a line reads back. -/
theorem read_render {v : Json} (h : v.Plain) : read (v.render ++ "\n") = .ok v := by
  have htext : (v.render ++ "\n").toList = v.render.toList ++ ['\n'] := String.toList_append
  rw [read, htext, readText_render h]

theorem plainItems_map {α : Type} {toJson : α → Json} {as : List α}
    (h : ∀ a ∈ as, (toJson a).Plain) : PlainItems (as.map toJson) := by
  induction as with
  | nil => trivial
  | cons a as ih =>
      obtain ⟨ha, has⟩ := List.forall_mem_cons.mp h
      exact ⟨ha, ih has⟩

theorem plainMembers_map {α : Type} {key : α → String} {toJson : α → Json} {as : List α}
    (h : ∀ a ∈ as, (toJson a).Plain) :
    PlainMembers (as.map fun a => (.text (key a), toJson a)) := by
  induction as with
  | nil => trivial
  | cons a as ih =>
      obtain ⟨ha, has⟩ := List.forall_mem_cons.mp h
      exact ⟨ha, ih has⟩

end OriginFacts.Json
