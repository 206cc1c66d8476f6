import OriginFacts.CommandLine.Run
import OriginFacts.Files.Tree
import OriginFacts.Proofs.Document.Names
import OriginFacts.Proofs.Lookup
import OriginFacts.Proofs.Span

/-!
Loading a program from files. A load only reads. It finds a program exactly if the files that it
asks for hold texts and these describe one. It crashes exactly if one of the files cannot be asked
for or holds bytes that are no text, if the program has a number that is too long, or if bytes are
asked of a string that has none; every other failure is one to report, and is told as one of
loading. All this is for a machine with room enough, and for programs whose names are texts.
-/

namespace OriginFacts.CommandLine

open Files

/-! ## What files hold -/

/-- The path leads to a file whose bytes are a text. Its line ends are unified. -/
def HoldsText (t : Tree) (path : Path) (text : String) : Prop :=
  path.hasNull = false ∧ ∃ raw : String, t.read path = .ok raw.toUTF8 ∧
    text = String.ofList (Text.unifyLineEnds raw.toList)

/-- The path cannot be asked for, or leads to a file whose bytes are no text. -/
def Garbled (t : Tree) (path : Path) : Prop :=
  path.hasNull = true ∨ ∃ bytes, t.read path = .ok bytes ∧ ¬ bytes.IsValidUTF8

/-- The source that is given beside the program: none if none is asked for. -/
inductive GivenSource (t : Tree) : Option FileValue → Option String → Prop where
  | none : GivenSource t none none
  | file {path : Path} {text : String} :
      HoldsText t path text → GivenSource t (some (.path path)) (some text)

/-- The files hold this program over this source. -/
def Loads (t : Tree) (settings : Settings) (p : Program) (source : String) : Prop :=
  ∃ override text doc, GivenSource t settings.source override ∧
    HoldsText t settings.program text ∧ Json.read text = .ok doc ∧
    Document.load doc (override.map .text) = .ok (p, source)

/-- A file, the source before the program, is garbled or was left without a name; or the program has
a number that is too long, or a string that has no bytes where they are asked for. -/
inductive LoadCrashes (t : Tree) (settings : Settings) : Prop where
  | nameless (h : settings.source = some .nameless)
  | source {path : Path} (h : settings.source = some (.path path)) (garbled : Garbled t path)
  | program {override : Option String} (h : GivenSource t settings.source override)
      (garbled : Garbled t settings.program)
  | number {override : Option String} {text : String} {error : Json.ReadError} {digits : Nat}
      (h : GivenSource t settings.source override) (holds : HoldsText t settings.program text)
      (refused : Json.read text = .error error) (long : error.problem = .longNumber digits)
  | string {override : Option String} {text : String} {doc : Json} {fault : EncodeFault}
      (h : GivenSource t settings.source override) (holds : HoldsText t settings.program text)
      (read : Json.read text = .ok doc)
      (refused : Document.load doc (override.map .text) = .error (.unencodable fault))

/-- Why nothing is loaded, with the code and the message that this is told by: a file, the source
before the program, cannot be read, the program is no JSON, or it describes no program. -/
inductive LoadFails (t : Tree) (settings : Settings) : String → String → Prop where
  | source {path : Path} {e : Error} (h : settings.source = some (.path path))
      (named : path.hasNull = false) (refused : t.read path = .error e) :
      LoadFails t settings e.refusal.code e.message
  | program {override : Option String} {e : Error} (h : GivenSource t settings.source override)
      (named : settings.program.hasNull = false) (refused : t.read settings.program = .error e) :
      LoadFails t settings e.refusal.code e.message
  | notJson {override : Option String} {text : String} {error : Json.ReadError}
      (h : GivenSource t settings.source override) (holds : HoldsText t settings.program text)
      (refused : Json.read text = .error error)
      (short : ∀ digits, error.problem ≠ .longNumber digits) :
      LoadFails t settings "ProgramFormatError"
        (settings.program.render ++ ": invalid JSON: " ++ error.message)
  | malformed {override : Option String} {text : String} {doc : Json} {error : Document.Error}
      (h : GivenSource t settings.source override) (holds : HoldsText t settings.program text)
      (read : Json.read text = .ok doc)
      (refused : Document.load doc (override.map .text) = .error (.malformed error)) :
      LoadFails t settings "ProgramFormatError" error.message

/-- The machine has room for the program. -/
def Fits (room : Room) (t : Tree) (settings : Settings) : Prop :=
  ∀ bytes, t.read settings.program = .ok bytes → room.exhausted? bytes = none

/-- If the program is a document, its names are texts. -/
def NamesAreTexts (t : Tree) (settings : Settings) : Prop :=
  ∀ text doc, HoldsText t settings.program text → Json.read text = .ok doc →
    Document.namesAreTexts doc = true

/-! ## Texts of bytes -/

theorem textOfBytes_eq_ok_iff {bytes : ByteArray} {text : String} :
    Document.textOfBytes bytes = .ok text ↔ ∃ raw : String, bytes = raw.toUTF8 ∧
      text = String.ofList (Text.unifyLineEnds raw.toList) := by
  unfold Document.textOfBytes Utf8.decode
  simp only [eq_comm (a := bytes), ← fromUTF8?_eq_some_iff]
  cases String.fromUTF8? bytes with
  | none => simp [Except.map]
  | some raw => simp [Except.map, eq_comm]

theorem textOfBytes_eq_error_iff {bytes : ByteArray} :
    (∃ fault, Document.textOfBytes bytes = .error fault) ↔ ¬ bytes.IsValidUTF8 := by
  have hok : (∃ text, Document.textOfBytes bytes = .ok text) ↔ bytes.IsValidUTF8 := by
    simp only [textOfBytes_eq_ok_iff]
    constructor
    · rintro ⟨_, raw, rfl, _⟩
      exact raw.isValidUTF8
    · intro h
      exact ⟨_, String.fromUTF8 bytes h, rfl, rfl⟩
  rw [← hok]
  cases Document.textOfBytes bytes <;> simp

theorem ofReadError_of_long {file : String} {error : Json.ReadError} {digits : Nat}
    (h : error.problem = .longNumber digits) :
    Document.FileError.ofReadError file error = .longNumber digits := by
  rw [Document.FileError.ofReadError, h]

theorem ofReadError_of_short {file : String} {error : Json.ReadError}
    (h : ∀ digits, error.problem ≠ .longNumber digits) :
    Document.FileError.ofReadError file error = .notJson file error := by
  unfold Document.FileError.ofReadError
  split
  · next digits hproblem => exact absurd hproblem (h digits)
  · rfl

section

variable {file : String} {bytes : ByteArray} {override : Option RawString}

theorem loadBytes_eq_ok_iff {result : Program × String} :
    Document.loadBytes file bytes override = .ok result ↔
      ∃ text doc, Document.textOfBytes bytes = .ok text ∧ Json.read text = .ok doc ∧
        Document.load doc override = .ok result := by
  simp only [Document.loadBytes, bind_eq_ok_iff, mapError_eq_ok_iff]
  constructor
  · rintro ⟨text, htext, doc, hdoc, hload⟩
    exact ⟨text, doc, htext, hdoc, hload⟩
  · rintro ⟨text, doc, htext, hdoc, hload⟩
    exact ⟨text, htext, doc, hdoc, hload⟩

theorem loadBytes_eq_error_iff {e : Document.FileError} :
    Document.loadBytes file bytes override = .error e ↔
      (∃ fault, Document.textOfBytes bytes = .error fault ∧ .undecodable fault = e) ∨
      (∃ text error, Document.textOfBytes bytes = .ok text ∧ Json.read text = .error error ∧
        .ofReadError file error = e) ∨
      ∃ text doc error, Document.textOfBytes bytes = .ok text ∧ Json.read text = .ok doc ∧
        Document.load doc override = .error error ∧ .document error = e := by
  simp only [Document.loadBytes, bind_eq_error_iff, mapError_eq_error_iff, mapError_eq_ok_iff]
  constructor
  · rintro (hfault | ⟨text, htext, ⟨error, hread, he⟩ | ⟨doc, hdoc, error, hload, he⟩⟩)
    · exact .inl hfault
    · exact .inr (.inl ⟨text, error, htext, hread, he⟩)
    · exact .inr (.inr ⟨text, doc, error, htext, hdoc, hload, he⟩)
  · rintro (hfault | ⟨text, error, htext, hread, he⟩ | ⟨text, doc, error, htext, hdoc, hload, he⟩)
    · exact .inl hfault
    · exact .inr ⟨text, htext, .inl ⟨error, hread, he⟩⟩
    · exact .inr ⟨text, htext, .inr ⟨doc, hdoc, error, hload, he⟩⟩

end

/-! ## Loads without the files -/

/-- The bytes at a path. -/
def bytesIn (t : Tree) (path : Path) : Except LoadProblem ByteArray :=
  if path.hasNull then .error (.crash .nullInPath)
  else (t.read path).mapError fun e => .failure e.failure

def sourceIn (t : Tree) : Option FileValue → Except LoadProblem (Option String)
  | none => .ok none
  | some .nameless => .error (.crash .namelessSource)
  | some (.path path) => do
    let bytes ← bytesIn t path
    let text ← (Document.textOfBytes bytes).mapError fun fault => .crash (.undecodable fault)
    return some text

/-- What a load of the files of a tree ends with, if there is room enough. -/
def loadIn (t : Tree) (settings : Settings) : Except LoadProblem (Program × String) := do
  let override ← sourceIn t settings.source
  let bytes ← bytesIn t settings.program
  (Document.loadBytes settings.program.render bytes (override.map .text)).mapError .ofFileError

/-- What it ends with in the room that there is. -/
def loadWithin (room : Room) (t : Tree) (settings : Settings) :
    Except LoadProblem (Program × String) := do
  let override ← sourceIn t settings.source
  let bytes ← bytesIn t settings.program
  match room.exhausted? bytes with
  | some message => .error (.crash (.exhausted message))
  | none =>
    (Document.loadBytes settings.program.render bytes (override.map .text)).mapError .ofFileError

variable {t : Tree} {α β : Type}

/-- The computation ends so and leaves the files as they are. -/
def Yields (m : ExceptT LoadProblem (StateM Tree) α) (t : Tree) (r : Except LoadProblem α) : Prop :=
  m.run.run t = (r, t)

theorem Yields.bind {m : ExceptT LoadProblem (StateM Tree) α}
    {k : α → ExceptT LoadProblem (StateM Tree) β} {r : Except LoadProblem α}
    {r' : α → Except LoadProblem β} (hm : Yields m t r) (hk : ∀ a, Yields (k a) t (r' a)) :
    Yields (m >>= k) t (r >>= r') := by
  unfold Yields at *
  rw [ExceptT.run_bind, StateT.run_bind, hm]
  cases r with
  | ok a => exact hk a
  | error problem => rfl

theorem yields_fileBytes (path : Path) :
    Yields (fileBytes Tree.fileSystem path) t (bytesIn t path) := by
  unfold fileBytes bytesIn
  split
  · rfl
  · have hread : Yields (ExceptT.lift (Tree.fileSystem.read path)) t (.ok (t.read path)) := rfl
    show Yields _ t (.ok (t.read path) >>= fun outcome =>
      outcome.mapError fun e => .failure e.failure)
    refine hread.bind fun outcome => ?_
    cases outcome <;> rfl

theorem yields_sourceText (source : Option FileValue) :
    Yields (sourceText Tree.fileSystem source) t (sourceIn t source) := by
  rcases source with _ | _ | path
  · rfl
  · rfl
  · refine (yields_fileBytes path).bind fun bytes => ?_
    cases Document.textOfBytes bytes <;> rfl

theorem yields_loadProgram (room : Room) (settings : Settings) :
    Yields (loadProgram Tree.fileSystem room settings) t (loadWithin room t settings) := by
  refine (yields_sourceText settings.source).bind fun override => ?_
  refine (yields_fileBytes settings.program).bind fun bytes => ?_
  cases room.exhausted? bytes with
  | some message => rfl
  | none =>
      cases Document.loadBytes settings.program.render bytes (override.map .text) <;> rfl

/-- Where room runs out this is all that becomes of the load. -/
theorem loadWithin_cases (room : Room) (t : Tree) (settings : Settings) :
    loadWithin room t settings = loadIn t settings ∨
      ∃ message, loadWithin room t settings = .error (.crash (.exhausted message)) := by
  unfold loadWithin loadIn
  cases sourceIn t settings.source with
  | error problem => exact .inl rfl
  | ok override =>
      cases bytesIn t settings.program with
      | error problem => exact .inl rfl
      | ok bytes =>
          cases hroom : room.exhausted? bytes with
          | some message => exact .inr ⟨message, by simp [bind, Except.bind, hroom]⟩
          | none => exact .inl (by simp [bind, Except.bind, hroom])

theorem loadIn_of_loadWithin {room : Room} {settings : Settings}
    {r : Except LoadProblem (Program × String)} (h : loadWithin room t settings = r)
    (hroom : ∀ message, r ≠ .error (.crash (.exhausted message))) : loadIn t settings = r := by
  rcases loadWithin_cases room t settings with hsame | ⟨message, hexhausted⟩
  · exact hsame ▸ h
  · exact absurd (h.symm.trans hexhausted) (hroom message)

/-! ## How loads end -/

theorem bytesIn_eq_ok_iff {path : Path} {bytes : ByteArray} :
    bytesIn t path = .ok bytes ↔ path.hasNull = false ∧ t.read path = .ok bytes := by
  unfold bytesIn
  cases path.hasNull <;> simp [mapError_eq_ok_iff]

theorem bytesIn_crash_iff {path : Path} {crash : Crash} :
    bytesIn t path = .error (.crash crash) ↔ path.hasNull = true ∧ crash = .nullInPath := by
  unfold bytesIn
  cases path.hasNull with
  | true => simp [eq_comm]
  | false => simp [mapError_eq_error_iff]

theorem bytesIn_failure_iff {path : Path} {failure : Failure} :
    bytesIn t path = .error (.failure failure) ↔
      path.hasNull = false ∧ ∃ e, t.read path = .error e ∧ e.failure = failure := by
  unfold bytesIn
  cases path.hasNull <;> simp [mapError_eq_error_iff]

theorem loadWithin_of_fits {room : Room} {settings : Settings} (h : Fits room t settings) :
    loadWithin room t settings = loadIn t settings := by
  unfold loadWithin loadIn
  cases sourceIn t settings.source with
  | error problem => rfl
  | ok override =>
      cases hbytes : bytesIn t settings.program with
      | error problem => rfl
      | ok bytes => simp [bind, Except.bind, h bytes (bytesIn_eq_ok_iff.mp hbytes).2]

theorem holdsText_iff {path : Path} {text : String} :
    HoldsText t path text ↔
      ∃ bytes, bytesIn t path = .ok bytes ∧ Document.textOfBytes bytes = .ok text := by
  simp only [bytesIn_eq_ok_iff, textOfBytes_eq_ok_iff]
  constructor
  · rintro ⟨hnull, raw, hread, rfl⟩
    exact ⟨_, ⟨hnull, hread⟩, raw, rfl, rfl⟩
  · rintro ⟨_, ⟨hnull, hread⟩, raw, rfl, rfl⟩
    exact ⟨hnull, raw, hread, rfl⟩

theorem garbled_iff {path : Path} :
    Garbled t path ↔ (∃ crash, bytesIn t path = .error (.crash crash)) ∨
      ∃ bytes fault, bytesIn t path = .ok bytes ∧ Document.textOfBytes bytes = .error fault := by
  simp only [Garbled, bytesIn_crash_iff, bytesIn_eq_ok_iff, ← textOfBytes_eq_error_iff]
  cases path.hasNull <;> simp

theorem sourceIn_eq_ok_iff {source : Option FileValue} {override : Option String} :
    sourceIn t source = .ok override ↔ GivenSource t source override := by
  rcases source with _ | _ | path
  · constructor
    · intro h
      cases h
      exact .none
    · intro h
      cases h
      rfl
  · constructor
    · intro h
      cases h
    · intro h
      cases h
  · simp only [sourceIn, bind_eq_ok_iff, mapError_eq_ok_iff, pure_eq_ok_iff]
    constructor
    · rintro ⟨bytes, hbytes, text, htext, rfl⟩
      exact .file (holdsText_iff.mpr ⟨bytes, hbytes, htext⟩)
    · intro h
      cases h with
      | file htext =>
          obtain ⟨bytes, hbytes, htext⟩ := holdsText_iff.mp htext
          exact ⟨bytes, hbytes, _, htext, rfl⟩

theorem sourceIn_crash_iff {source : Option FileValue} :
    (∃ crash, sourceIn t source = .error (.crash crash)) ↔
      source = some .nameless ∨ ∃ path, source = some (.path path) ∧ Garbled t path := by
  rcases source with _ | _ | path
  · simp [sourceIn]
  · simp [sourceIn]
  · have hpath : (∃ other, some (FileValue.path path) = some (.path other) ∧ Garbled t other) ↔
        Garbled t path := by simp
    have hname : ¬ some (FileValue.path path) = some .nameless := by simp
    rw [hpath, garbled_iff, or_iff_right hname]
    simp only [sourceIn, bind_eq_error_iff, mapError_eq_error_iff]
    constructor
    · rintro ⟨crash, hbytes | ⟨bytes, hbytes, ⟨fault, htext, _⟩ | ⟨text, _, hend⟩⟩⟩
      · exact .inl ⟨crash, hbytes⟩
      · exact .inr ⟨bytes, fault, hbytes, htext⟩
      · cases hend
    · rintro (⟨crash, hbytes⟩ | ⟨bytes, fault, hbytes, htext⟩)
      · exact ⟨crash, .inl hbytes⟩
      · exact ⟨_, .inr ⟨bytes, hbytes, .inl ⟨fault, htext, rfl⟩⟩⟩

theorem loadIn_eq_ok_iff {settings : Settings} {p : Program} {source : String} :
    loadIn t settings = .ok (p, source) ↔ Loads t settings p source := by
  simp only [loadIn, bind_eq_ok_iff, mapError_eq_ok_iff, sourceIn_eq_ok_iff, loadBytes_eq_ok_iff]
  constructor
  · rintro ⟨override, hsource, bytes, hbytes, text, doc, htext, hdoc, hload⟩
    exact ⟨override, text, doc, hsource, holdsText_iff.mpr ⟨bytes, hbytes, htext⟩, hdoc, hload⟩
  · rintro ⟨override, text, doc, hsource, htext, hdoc, hload⟩
    obtain ⟨bytes, hbytes, htext⟩ := holdsText_iff.mp htext
    exact ⟨override, hsource, bytes, hbytes, text, doc, htext, hdoc, hload⟩

theorem sourceIn_failure_iff {source : Option FileValue} {failure : Failure} :
    sourceIn t source = .error (.failure failure) ↔
      ∃ path e, source = some (.path path) ∧ path.hasNull = false ∧ t.read path = .error e ∧
        e.failure = failure := by
  rcases source with _ | _ | path
  · simp [sourceIn]
  · simp [sourceIn]
  · simp only [sourceIn, bind_eq_error_iff, mapError_eq_error_iff, bytesIn_failure_iff]
    constructor
    · rintro (⟨hnull, e, hread, he⟩ | ⟨_, _, ⟨_, _, ⟨⟩⟩ | ⟨_, _, ⟨⟩⟩⟩)
      exact ⟨path, e, rfl, hnull, hread, he⟩
    · rintro ⟨_, e, ⟨⟩, hnull, hread, he⟩
      exact .inl ⟨hnull, e, hread, he⟩

/-! ## Crashes and failures -/

theorem loadIn_eq_error_iff {settings : Settings} {problem : LoadProblem} :
    loadIn t settings = .error problem ↔
      sourceIn t settings.source = .error problem ∨
      ∃ override, GivenSource t settings.source override ∧
        (bytesIn t settings.program = .error problem ∨
        ∃ bytes, bytesIn t settings.program = .ok bytes ∧
          ∃ e, Document.loadBytes settings.program.render bytes (override.map .text) = .error e ∧
            LoadProblem.ofFileError e = problem) := by
  simp only [loadIn, bind_eq_error_iff, mapError_eq_error_iff, sourceIn_eq_ok_iff]

theorem loadIn_crash_iff {settings : Settings} (hnames : NamesAreTexts t settings) :
    (∃ crash, loadIn t settings = .error (.crash crash)) ↔ LoadCrashes t settings := by
  simp only [loadIn_eq_error_iff, loadBytes_eq_error_iff]
  constructor
  · rintro ⟨crash, hsource | ⟨override, hsource, hbytes | ⟨bytes, hbytes, e, he, hcrash⟩⟩⟩
    · rcases sourceIn_crash_iff.mp ⟨crash, hsource⟩ with hname | ⟨path, hpath, hgarbled⟩
      · exact .nameless hname
      · exact .source hpath hgarbled
    · exact .program hsource (garbled_iff.mpr (.inl ⟨crash, hbytes⟩))
    · rcases he with ⟨fault, htext, rfl⟩ | ⟨text, error, htext, hread, rfl⟩ |
        ⟨text, doc, error, htext, hread, hload, rfl⟩
      · exact .program hsource (garbled_iff.mpr (.inr ⟨bytes, fault, hbytes, htext⟩))
      · have hholds := holdsText_iff.mpr ⟨bytes, hbytes, htext⟩
        by_cases hlong : ∃ digits, error.problem = .longNumber digits
        · obtain ⟨digits, hlong⟩ := hlong
          exact .number hsource hholds hread hlong
        · rw [ofReadError_of_short (not_exists.mp hlong)] at hcrash
          cases hcrash
      · have hholds := holdsText_iff.mpr ⟨bytes, hbytes, htext⟩
        cases error with
        | malformed error => cases hcrash
        | unencodable fault => exact .string hsource hholds hread hload
        | foreign path =>
            have hdoc := hnames text doc hholds hread
            exact absurd hload (Document.settled_load hdoc _ path)
  · intro h
    cases h with
    | nameless hname =>
        obtain ⟨crash, hcrash⟩ := sourceIn_crash_iff.mpr (.inl hname)
        exact ⟨crash, .inl hcrash⟩
    | source hpath hgarbled =>
        obtain ⟨crash, hcrash⟩ := sourceIn_crash_iff.mpr (.inr ⟨_, hpath, hgarbled⟩)
        exact ⟨crash, .inl hcrash⟩
    | program hsource hgarbled =>
        rcases garbled_iff.mp hgarbled with ⟨crash, hbytes⟩ | ⟨bytes, fault, hbytes, htext⟩
        · exact ⟨crash, .inr ⟨_, hsource, .inl hbytes⟩⟩
        · exact ⟨_, .inr ⟨_, hsource, .inr ⟨bytes, hbytes, _, .inl ⟨fault, htext, rfl⟩, rfl⟩⟩⟩
    | @number override text error digits hsource hholds hread hlong =>
        obtain ⟨bytes, hbytes, htext⟩ := holdsText_iff.mp hholds
        refine ⟨.longNumber digits, .inr ⟨_, hsource, .inr ⟨bytes, hbytes, _,
          .inr (.inl ⟨text, error, htext, hread, rfl⟩), ?_⟩⟩⟩
        rw [ofReadError_of_long hlong]
        rfl
    | string hsource hholds hread hload =>
        obtain ⟨bytes, hbytes, htext⟩ := holdsText_iff.mp hholds
        exact ⟨_, .inr ⟨_, hsource, .inr ⟨bytes, hbytes, _,
          .inr (.inr ⟨_, _, _, htext, hread, hload, rfl⟩), rfl⟩⟩⟩

/-- Whatever is reported of a load is told as a failure of loading. -/
theorem loadIn_failure_iff {settings : Settings} (hfile : settings.program.render ≠ "")
    {failure : Failure} :
    loadIn t settings = .error (.failure failure) ↔
      failure.phase = some .load ∧ LoadFails t settings failure.code failure.message := by
  have hjson : ∀ error : Json.ReadError,
      Document.located settings.program.render ("invalid JSON: " ++ error.message) =
        settings.program.render ++ ": invalid JSON: " ++ error.message := by
    intro error
    have hshown : settings.program.render.isEmpty = false := by simp [hfile]
    have hmark : ": invalid JSON: " = ": " ++ "invalid JSON: " := rfl
    simp only [Document.located, hshown, hmark, Bool.false_eq_true, if_false, String.append_assoc]
  simp only [loadIn_eq_error_iff, loadBytes_eq_error_iff, sourceIn_failure_iff, bytesIn_failure_iff]
  constructor
  · rintro (⟨path, e, hpath, hnull, hread, rfl⟩ | ⟨override, hsource,
      ⟨hnull, e, hread, rfl⟩ | ⟨bytes, hbytes, e, he, hfailure⟩⟩)
    · exact ⟨rfl, .source hpath hnull hread⟩
    · exact ⟨rfl, .program hsource hnull hread⟩
    · rcases he with ⟨fault, _, rfl⟩ | ⟨text, error, htext, hread, rfl⟩ |
        ⟨text, doc, error, htext, hread, hload, rfl⟩
      · cases hfailure
      · have hholds := holdsText_iff.mpr ⟨bytes, hbytes, htext⟩
        by_cases hlong : ∃ digits, error.problem = .longNumber digits
        · obtain ⟨digits, hlong⟩ := hlong
          rw [ofReadError_of_long hlong] at hfailure
          cases hfailure
        · rw [ofReadError_of_short (not_exists.mp hlong)] at hfailure
          cases hfailure
          refine ⟨rfl, ?_⟩
          simp only [hjson]
          exact .notJson hsource hholds hread (not_exists.mp hlong)
      · have hholds := holdsText_iff.mpr ⟨bytes, hbytes, htext⟩
        cases error with
        | malformed error =>
            cases hfailure
            exact ⟨rfl, .malformed hsource hholds hread hload⟩
        | unencodable fault => cases hfailure
        | foreign path => cases hfailure
  · obtain ⟨phase, code, message⟩ := failure
    rintro ⟨rfl, h⟩
    cases h with
    | source hpath hnull hread => exact .inl ⟨_, _, hpath, hnull, hread, rfl⟩
    | program hsource hnull hread => exact .inr ⟨_, hsource, .inl ⟨hnull, _, hread, rfl⟩⟩
    | @notJson override text error hsource hholds hread hshort =>
        obtain ⟨bytes, hbytes, htext⟩ := holdsText_iff.mp hholds
        refine .inr ⟨_, hsource, .inr ⟨bytes, hbytes, _,
          .inr (.inl ⟨text, error, htext, hread, rfl⟩), ?_⟩⟩
        rw [ofReadError_of_short hshort, LoadProblem.ofFileError, hjson]
        rfl
    | malformed hsource hholds hread hload =>
        obtain ⟨bytes, hbytes, htext⟩ := holdsText_iff.mp hholds
        exact .inr ⟨_, hsource, .inr ⟨bytes, hbytes, _,
          .inr (.inr ⟨_, _, _, htext, hread, hload, rfl⟩), rfl⟩⟩

end OriginFacts.CommandLine
