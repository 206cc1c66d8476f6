import OriginFacts.CommandLine.Environment
import OriginFacts.CommandLine.Settings
import OriginFacts.Proofs.Lookup

/-!
What accepted arguments ask for. An option is in the settings exactly if a word of the arguments is
that option, wherever the word stands.
-/

namespace OriginFacts.CommandLine

/-- Whether a word is an option. -/
def Word.isFlag (flag : Flag) : Word → Bool
  | .flag other _ _ => decide (other = flag)
  | _ => false

/-- Whether the arguments ask for an option. -/
def asksFor (arguments : List String) (flag : Flag) : Bool :=
  match classifyAll arguments with
  | .ok words => words.any (·.isFlag flag)
  | .error _ => false

/-- Whether an option was read. -/
def State.has (s : State) : Flag → Bool
  | .help => false
  | .source => s.source.isSome
  | .simpleNodes => s.simpleNodes
  | .verboseNodes => s.verboseNodes
  | .json => s.json
  | .factsDir => s.factsDir.isSome
  | .verbose => s.verbosity != 0

/-- An option that no letter stands for. -/
def Flag.isLong (flag : Flag) : Bool :=
  flag.spellings.all fun spelling => 2 < spelling.length

/-! ## Single options -/

theorem Flag.mem_table_of_ofSpelling? {spelling : String} {flag : Flag}
    (h : ofSpelling? spelling = some flag) : (spelling, flag) ∈ table := by
  obtain ⟨before, after, hsplit, _⟩ := List.lookup_eq_some_iff.mp h
  simp [hsplit]

theorem State.has_of_apply {s s' : State} {flag other : Flag} (h : s.apply other = .ok s')
    (hvalue : other.takesValue = false) : s'.has flag = (s.has flag || decide (other = flag)) := by
  cases other with
  | help => cases h
  | source => cases hvalue
  | factsDir => cases hvalue
  | json =>
      cases h
      cases flag <;> simp [has]
  | verbose =>
      cases h
      cases flag <;> simp [has]
  | simpleNodes =>
      simp only [apply] at h
      split at h
      · cases h
      · cases h
        cases flag <;> simp [has]
  | verboseNodes =>
      simp only [apply] at h
      split at h
      · cases h
      · cases h
        cases flag <;> simp [has]

theorem Flag.isLong_of_letter {c : Char} {flag : Flag}
    (h : ofSpelling? (String.ofList ['-', c]) = some flag) : flag.isLong = false := by
  have hshort : ∀ entry ∈ table, entry.1.length = 2 → entry.2.isLong = false := by decide
  exact hshort _ (mem_table_of_ofSpelling? h) (String.length_ofList)

theorem Flag.takesValue_of_isLong_eq_false {flag : Flag} (h : flag.isLong = false) :
    flag.takesValue = false := by
  cases flag <;> revert h <;> decide

theorem cluster_eq_ok {flag : Flag} {cs : List Char} {flags : List Flag}
    (h : cluster flag cs = .ok flags) :
    ∃ more, flags = flag :: more ∧ ∀ other ∈ more, other.isLong = false := by
  induction cs generalizing flag flags with
  | nil =>
      cases h
      exact ⟨[], rfl, by simp⟩
  | cons c cs ih =>
      rw [cluster] at h
      split at h
      · next next hnext =>
        obtain ⟨rest, hrest, hflags⟩ := bind_eq_ok_iff.mp h
        cases hflags
        obtain ⟨more, rfl, hmore⟩ := ih hrest
        refine ⟨_, rfl, List.forall_mem_cons.mpr ⟨Flag.isLong_of_letter hnext, hmore⟩⟩
      · cases h

theorem flagsOf_eq_ok {flag : Flag} {spelling : String} {attached : Option String}
    {flags : List Flag} (h : flagsOf flag spelling attached = .ok flags) :
    ∃ more, flags = flag :: more ∧ ∀ other ∈ more, other.isLong = false := by
  cases attached with
  | none =>
      cases h
      exact ⟨[], rfl, by simp⟩
  | some text =>
      simp only [flagsOf] at h
      split at h
      · cases h
      · exact cluster_eq_ok h

theorem State.has_of_foldlM {s s' : State} {flag : Flag} (hlong : flag.isLong = true)
    {flags : List Flag} (hflags : ∀ other ∈ flags, other.isLong = false)
    (h : flags.foldlM apply s = .ok s') : s'.has flag = s.has flag := by
  induction flags generalizing s with
  | nil =>
      cases h
      rfl
  | cons other flags ih =>
      obtain ⟨hother, hflags⟩ := List.forall_mem_cons.mp hflags
      rw [List.foldlM_cons] at h
      obtain ⟨between, happly, hrest⟩ := bind_eq_ok_iff.mp h
      have hvalue := Flag.takesValue_of_isLong_eq_false hother
      have hne : other ≠ flag := by
        rintro rfl
        rw [hlong] at hother
        cases hother
      simp [ih hflags hrest, has_of_apply happly hvalue, hne]

theorem State.has_of_applyValue {s : State} {flag other : Flag} {value : String}
    (h : other.takesValue = true) :
    (s.applyValue other value).has flag = (s.has flag || decide (other = flag)) := by
  cases other with
  | source => cases flag <;> simp [applyValue, has]
  | factsDir => cases flag <;> simp [applyValue, has]
  | _ => cases h

/-! ## All words -/

@[simp]
theorem State.has_extra (s : State) (text : String) (flag : Flag) :
    (s.extra text).has flag = s.has flag := by
  cases flag <;> rfl

@[simp]
theorem State.has_program (s : State) (text : Option String) (flag : Flag) :
    { s with program := text }.has flag = s.has flag := by
  cases flag <;> rfl

theorem State.has_of_scan {flag : Flag} (hlong : flag.isLong = true) {s s' : State}
    {words : List Word} (h : scan s words = .ok s') :
    s'.has flag = (s.has flag || words.any (·.isFlag flag)) := by
  fun_induction scan s words with
  | case1 s =>
      cases h
      simp
  | case2 s text words _ ih => simpa [Word.isFlag] using ih h
  | case3 s text _ rest ih => simpa [Word.isFlag] using ih h
  | case4 s text _ rest _ ih => simpa [Word.isFlag] using ih h
  | case5 s words _ ih => simpa [Word.isFlag] using ih h
  | case6 s _ text rest ih => simpa [Word.isFlag] using ih h
  | case7 s _ rest _ ih => simpa [Word.isFlag] using ih h
  | case8 s text words ih => simpa [Word.isFlag] using ih h
  | case9 s other spelling words hvalue value ih =>
      rw [ih h, has_of_applyValue hvalue, Bool.or_assoc]
      rfl
  | case10 s other spelling hvalue value rest ih =>
      rw [ih h, has_of_applyValue hvalue, Bool.or_assoc]
      rfl
  | case11 => cases h
  | case12 => cases h
  | case13 => cases h
  | case14 s other spelling attached words hvalue flags hflags between hfold ih =>
      obtain ⟨more, rfl, hmore⟩ := flagsOf_eq_ok hflags
      rw [List.foldlM_cons] at hfold
      obtain ⟨first, happly, hrest⟩ := bind_eq_ok_iff.mp hfold
      rw [ih h, has_of_foldlM hlong hmore hrest,
        has_of_apply happly (Bool.not_eq_true _ ▸ hvalue), Bool.or_assoc]
      rfl

/-! ## The naming of nodes -/

/-- The naming is that of the option for it which was read. The two exclude each other. -/
def State.Named (s : State) : Prop :=
  s.naming = if s.simpleNodes then some .letters else if s.verboseNodes then some .verbose else none

theorem State.named_of_apply {s s' : State} {flag : Flag} (h : s.apply flag = .ok s')
    (hs : s.Named) : s'.Named := by
  cases flag with
  | help => cases h
  | simpleNodes =>
      simp only [apply] at h
      split at h
      · cases h
      · cases h
        simp [Named]
  | verboseNodes =>
      simp only [apply] at h
      split at h
      · cases h
      · next hsimple =>
        cases h
        simp [Named, hsimple]
  | _ =>
      cases h
      exact hs

theorem State.named_of_foldlM {s s' : State} {flags : List Flag}
    (h : flags.foldlM apply s = .ok s') (hs : s.Named) : s'.Named := by
  induction flags generalizing s with
  | nil =>
      cases h
      exact hs
  | cons flag flags ih =>
      rw [List.foldlM_cons] at h
      obtain ⟨between, happly, hrest⟩ := bind_eq_ok_iff.mp h
      exact ih hrest (named_of_apply happly hs)

theorem State.named_applyValue {s : State} (hs : s.Named) (flag : Flag) (value : String) :
    (s.applyValue flag value).Named := by
  cases flag <;> exact hs

theorem State.named_of_scan {s s' : State} {words : List Word} (h : scan s words = .ok s')
    (hs : s.Named) : s'.Named := by
  fun_induction scan s words with
  | case1 s =>
      cases h
      exact hs
  | case2 s text words _ ih => exact ih h hs
  | case3 s text _ rest ih => exact ih h hs
  | case4 s text _ rest _ ih => exact ih h hs
  | case5 s words _ ih => exact ih h hs
  | case6 s _ text rest ih => exact ih h hs
  | case7 s _ rest _ ih => exact ih h hs
  | case8 s text words ih => exact ih h hs
  | case9 s flag spelling words _ value ih => exact ih h (named_applyValue hs flag value)
  | case10 s flag spelling _ value rest ih => exact ih h (named_applyValue hs flag value)
  | case11 => cases h
  | case12 => cases h
  | case13 => cases h
  | case14 s flag spelling attached words _ flags _ between hfold ih =>
      exact ih h (named_of_foldlM hfold hs)

/-! ## Settings -/

variable {arguments : List String} {settings : Settings}

theorem parse_eq_ok (h : parse arguments = .ok settings) :
    ∃ words s, classifyAll arguments = .ok words ∧ scan {} words = .ok s ∧
      settings.source = s.source.map .ofText ∧ settings.naming = s.naming ∧
      settings.json = s.json ∧ settings.factsDir = s.factsDir.map .ofText := by
  obtain ⟨words, hwords, h⟩ := bind_eq_ok_iff.mp h
  obtain ⟨s, hs, h⟩ := bind_eq_ok_iff.mp h
  refine ⟨words, s, mapError_eq_ok_iff.mp hwords, hs, ?_⟩
  split at h
  · cases h
  · split at h
    · cases h
      exact ⟨rfl, rfl, rfl, rfl⟩
    · cases h

/-- The program is named by a text. -/
theorem program_of_parse (h : parse arguments = .ok settings) :
    ∃ text, settings.program = .ofText text := by
  obtain ⟨_, _, h⟩ := bind_eq_ok_iff.mp h
  obtain ⟨_, _, h⟩ := bind_eq_ok_iff.mp h
  split at h
  · cases h
  · split at h
    · cases h
      exact ⟨_, rfl⟩
    · cases h

/-- The settings have an option exactly if the arguments ask for it. -/
theorem has_of_parse (h : parse arguments = .ok settings) :
    ∃ s : State, s.Named ∧ (∀ flag : Flag, flag.isLong = true → s.has flag = asksFor arguments flag) ∧
      settings.source = s.source.map .ofText ∧ settings.naming = s.naming ∧
      settings.json = s.json ∧ settings.factsDir = s.factsDir.map .ofText := by
  obtain ⟨words, s, hwords, hs, hsettings⟩ := parse_eq_ok h
  refine ⟨s, State.named_of_scan hs rfl, fun flag hlong => ?_, hsettings⟩
  have hstart : State.has {} flag = false := by cases flag <;> rfl
  rw [State.has_of_scan hlong hs, hstart, Bool.false_or, asksFor, hwords]

/-- The naming of a run: the one that is asked for, else letters if the variable for them is set. -/
def chosenNaming (arguments : List String) (environment : Environment) : Naming :=
  if asksFor arguments .simpleNodes then .letters
  else if asksFor arguments .verboseNodes then .verbose
  else if (environment.map (·.1)).contains "SIMPLE_NODES" then .letters
  else .verbose

theorem json_of_parse (h : parse arguments = .ok settings) :
    settings.json = asksFor arguments .json := by
  obtain ⟨s, _, hhas, _, _, hjson, _⟩ := has_of_parse h
  exact hjson.trans (hhas .json rfl)

theorem isSome_factsDir_of_parse (h : parse arguments = .ok settings) :
    settings.factsDir.isSome = asksFor arguments .factsDir := by
  obtain ⟨s, _, hhas, _, _, _, hdir⟩ := has_of_parse h
  rw [hdir, Option.isSome_map]
  exact hhas .factsDir rfl

theorem naming_of_parse (h : parse arguments = .ok settings) (environment : Environment) :
    settings.naming.getD environment.naming = chosenNaming arguments environment := by
  obtain ⟨s, hnamed, hhas, _, hnaming, _, _⟩ := has_of_parse h
  have hsimple : s.simpleNodes = asksFor arguments .simpleNodes := hhas .simpleNodes rfl
  have hverbose : s.verboseNodes = asksFor arguments .verboseNodes := hhas .verboseNodes rfl
  rw [hnaming, hnamed, hsimple, hverbose, chosenNaming]
  split
  · rfl
  · split
    · rfl
    · rfl

end OriginFacts.CommandLine
