import OriginFacts.Proofs.CommandLine.Arguments
import OriginFacts.Proofs.CommandLine.Loading
import OriginFacts.Proofs.CommandLine.Reports
import OriginFacts.Proofs.Document.Spans

/-!
Runs of the command line on files kept in memory. A run that fails leaves the files as they are and
tells of one failure; a run that succeeds prints the facts of the program that it loaded. A run ends
without a report over files that are no texts, a number that is too long, a string without bytes
where they are asked for, a refused directory for the tables, and where the machine has no room for
the program.
-/

namespace OriginFacts.CommandLine

open Files

variable {t t' : Tree} {room : Room} {environment : Environment} {settings : Settings}

/-- The extraction that a run makes of what it loaded. -/
def extractionOf (environment : Environment) (settings : Settings) (p : Program)
    (source : String) : Extraction :=
  ⟨p, source.toUTF8, settings.naming.getD environment.naming⟩

/-! ## The ways of a run -/

theorem run_loadProgram {r : Except LoadProblem (Program × String)}
    (h : loadWithin room t settings = r) :
    (loadProgram Tree.fileSystem room settings).run.run t = (r, t) :=
  h ▸ yields_loadProgram room settings

theorem runWith_of_crash {crash : Crash} (h : loadWithin room t settings = .error (.crash crash)) :
    (runWith Tree.fileSystem room environment settings).run t = (.error crash, t) := by
  rw [runWith, StateT.run_bind, run_loadProgram h]
  rfl

theorem runWith_of_failure {failure : Failure}
    (h : loadWithin room t settings = .error (.failure failure)) :
    (runWith Tree.fileSystem room environment settings).run t =
      (.ok (failureReport settings "" failure), t) := by
  rw [runWith, StateT.run_bind, run_loadProgram h]
  rfl

section

variable {p : Program} {source : String} (h : loadWithin room t settings = .ok (p, source))

include h

theorem runWith_of_fault {fault : Fault}
    (hfault : (extractionOf environment settings p source).facts = .error fault) :
    ∃ steps, (runWith Tree.fileSystem room environment settings).run t =
      (.ok (failureReport settings (Progress.log settings.verbosity steps) fault.failure), t) := by
  unfold extractionOf at hfault
  simp only [runWith, StateT.run_bind, run_loadProgram h]
  simp only [hfault, bind]
  exact ⟨_, rfl⟩

theorem runWith_of_facts {f : Facts}
    (hfacts : (extractionOf environment settings p source).facts = .ok f) :
    ∃ steps, (runWith Tree.fileSystem room environment settings).run t =
      (finish Tree.fileSystem settings steps f).run t := by
  unfold extractionOf at hfacts
  simp only [runWith, StateT.run_bind, run_loadProgram h]
  simp only [hfacts, bind]
  exact ⟨_, rfl⟩

end

theorem finish_of_none (h : settings.factsDir = none) (steps : List Progress) (f : Facts) :
    (finish Tree.fileSystem settings steps f).run t =
      (.ok (successReport settings (Progress.log settings.verbosity steps) f), t) := by
  rw [finish, h]
  rfl

theorem finish_eq_ok {steps : List Progress} {f : Facts} {report : Report}
    (h : (finish Tree.fileSystem settings steps f).run t = (.ok report, t')) :
    ∃ told, report = successReport settings (Progress.log settings.verbosity told) f := by
  unfold finish at h
  split at h
  · cases h
    exact ⟨steps, rfl⟩
  · cases h
  · rw [StateT.run_bind] at h
    rcases hwritten : (writeFacts Tree.fileSystem _ f).run t with ⟨written, between⟩
    rw [hwritten] at h
    cases written with
    | error crash => cases h
    | ok _ =>
        cases h
        exact ⟨_, rfl⟩

/-- All ways that a run can go. Only a crash can be for want of room. -/
theorem runWith_cases (room : Room) (environment : Environment) (settings : Settings) (t : Tree) :
    (∃ crash, loadWithin room t settings = .error (.crash crash) ∧
      (runWith Tree.fileSystem room environment settings).run t = (.error crash, t)) ∨
    (∃ failure, loadIn t settings = .error (.failure failure) ∧
      (runWith Tree.fileSystem room environment settings).run t =
        (.ok (failureReport settings "" failure), t)) ∨
    (∃ p source fault steps, Loads t settings p source ∧
      (extractionOf environment settings p source).facts = .error fault ∧
      (runWith Tree.fileSystem room environment settings).run t =
        (.ok (failureReport settings (Progress.log settings.verbosity steps) fault.failure), t)) ∨
    (∃ p source f steps, Loads t settings p source ∧
      (extractionOf environment settings p source).facts = .ok f ∧
      (runWith Tree.fileSystem room environment settings).run t =
        (finish Tree.fileSystem settings steps f).run t) := by
  rcases hload : loadWithin room t settings with (failure | crash) | ⟨p, source⟩
  · exact .inr (.inl ⟨failure, loadIn_of_loadWithin hload nofun, runWith_of_failure hload⟩)
  · exact .inl ⟨crash, rfl, runWith_of_crash hload⟩
  · have hloads := loadIn_eq_ok_iff.mp (loadIn_of_loadWithin hload nofun)
    cases hfacts : (extractionOf environment settings p source).facts with
    | error fault =>
        obtain ⟨steps, hrun⟩ := runWith_of_fault hload hfacts
        exact .inr (.inr (.inl ⟨p, source, fault, steps, hloads, hfacts, hrun⟩))
    | ok f =>
        obtain ⟨steps, hrun⟩ := runWith_of_facts hload hfacts
        exact .inr (.inr (.inr ⟨p, source, f, steps, hloads, hfacts, hrun⟩))

/-! ## What runs tell and change -/

variable {arguments : List String} {report : Report}

theorem run_of_parse (h : parse arguments = .ok settings) :
    (run Tree.fileSystem room environment arguments).run t =
      (runWith Tree.fileSystem room environment settings).run t := by
  rw [run, h]

theorem extractionOf_of_parse (h : parse arguments = .ok settings) (p : Program) (source : String) :
    extractionOf environment settings p source =
      ⟨p, source.toUTF8, chosenNaming arguments environment⟩ := by
  rw [extractionOf, naming_of_parse h]

theorem program_shown_of_parse (h : parse arguments = .ok settings) :
    settings.program.render ≠ "" := by
  obtain ⟨text, hprogram⟩ := program_of_parse h
  rw [hprogram]
  exact Path.render_ofText_ne_empty text

/-- A failure to load is told as one. -/
theorem tells_of_loadIn (hfile : settings.program.render ≠ "") {failure : Failure}
    (h : loadIn t settings = .error (.failure failure)) :
    LoadFails t settings failure.code failure.message ∧
      Tells settings.json settings.verbosity (failureReport settings "" failure)
        settings.program.render "load" failure.code failure.message := by
  obtain ⟨hphase, hfails⟩ := (loadIn_failure_iff hfile).mp h
  exact ⟨hfails, tells_failureReport hfile [] hphase⟩

/-- A fault is told as a failure of extraction. -/
theorem tells_fault (hfile : settings.program.render ≠ "") (steps : List Progress) (fault : Fault) :
    Tells settings.json settings.verbosity
      (failureReport settings (Progress.log settings.verbosity steps) fault.failure)
      settings.program.render "facts" fault.code fault.message := by
  have hphase : fault.failure.phase = some .facts := rfl
  exact tells_failureReport hfile steps hphase

/-- A run with a report either failed, changed no file and tells of one failure, of loading if
nothing could be loaded and else of extraction; or it prints the facts of what it loaded. -/
theorem report_of_run (hargs : parse arguments = .ok settings)
    (hrun : (run Tree.fileSystem room environment arguments).run t = (.ok report, t')) :
    (t' = t ∧
      ((∃ code message, LoadFails t settings code message ∧
        (¬ ∃ p source, Loads t settings p source) ∧
        Tells (asksFor arguments .json) settings.verbosity report settings.program.render "load"
          code message) ∨
      ∃ p source fault, Loads t settings p source ∧
        Extraction.facts ⟨p, source.toUTF8, chosenNaming arguments environment⟩ = .error fault ∧
        Tells (asksFor arguments .json) settings.verbosity report settings.program.render "facts"
          fault.code fault.message)) ∨
    (∃ p source f, Loads t settings p source ∧
      Extraction.facts ⟨p, source.toUTF8, chosenNaming arguments environment⟩ = .ok f ∧
      Shows (asksFor arguments .json) report f) := by
  have hfile := program_shown_of_parse hargs
  rw [run_of_parse hargs] at hrun
  rw [← json_of_parse hargs]
  simp only [← extractionOf_of_parse hargs]
  obtain ⟨crash, _, hway⟩ | ⟨failure, hload, hway⟩ |
    ⟨p, source, fault, steps, hloads, hfault, hway⟩ |
    ⟨p, source, f, steps, hloads, hfacts, hway⟩ := runWith_cases room environment settings t
  · rw [hway] at hrun
    cases hrun
  · rw [hway] at hrun
    cases hrun
    obtain ⟨hfails, htells⟩ := tells_of_loadIn hfile hload
    refine .inl ⟨rfl, .inl ⟨failure.code, failure.message, hfails, ?_, htells⟩⟩
    rintro ⟨p, source, hloads⟩
    rw [loadIn_eq_ok_iff.mpr hloads] at hload
    cases hload
  · rw [hway] at hrun
    cases hrun
    exact .inl ⟨rfl, .inr ⟨p, source, fault, hloads, hfault, tells_fault hfile steps fault⟩⟩
  · rw [hway] at hrun
    obtain ⟨told, rfl⟩ := finish_eq_ok hrun
    exact .inr ⟨p, source, f, hloads, hfacts, shows_successReport settings _ f⟩

/-- A machine with room for every program. -/
def Room.ample : Room :=
  ⟨fun _ => none⟩

theorem loadWithin_ample (t : Tree) (settings : Settings) :
    loadWithin .ample t settings = loadIn t settings :=
  loadWithin_of_fits fun _ _ => rfl

/-- A program that loads, but whose one statement has no text. -/
def wideStatement : Json :=
  Document.placedDoc "é" [("text", .str "é")]

def wideStatementFiles : Tree :=
  ⟨[(["prog.json"], .file (wideStatement.render ++ "\n").toUTF8)]⟩

def wideStatementSettings : Settings :=
  ⟨.ofText "prog.json", none, none, true, some (.path (.ofText "out")), 0⟩

theorem plain_wideStatement : wideStatement.Plain := by
  have hzero : Json.Readable 0 := by decide
  simp [wideStatement, Document.placedDoc, Json.Plain, Json.PlainItems, Json.PlainMembers, hzero]

theorem loads_wideStatement :
    Loads wideStatementFiles wideStatementSettings (Document.placedProgram [⟨0, 2⟩]) "é" := by
  have hlines : Text.unifyLineEnds (wideStatement.render ++ "\n").toList =
      (wideStatement.render ++ "\n").toList := by decide +kernel
  refine ⟨none, _, wideStatement, .none, ⟨rfl, _, rfl, rfl⟩, ?_, rfl⟩
  rw [hlines, String.ofList_toList]
  exact Json.read_render plain_wideStatement

/-- The directory for the tables is not made if a statement has no text. -/
theorem report_of_run_wideStatement :
    ∃ report, (run Tree.fileSystem .ample [] ["prog.json", "--json", "--facts-dir", "out"]).run
        wideStatementFiles = (.ok report, wideStatementFiles) ∧
      Tells true 0 report "prog.json" "facts" "InvalidSpanError"
        "span 0..2 does not cover a statement in a source of 2 bytes" := by
  have hargs : parse ["prog.json", "--json", "--facts-dir", "out"] =
      .ok wideStatementSettings := rfl
  have hload := loadIn_eq_ok_iff.mpr loads_wideStatement
  have hfault : (extractionOf [] wideStatementSettings (Document.placedProgram [⟨0, 2⟩])
      "é").facts = .error (.invalidSpan 0 2 2) := rfl
  rw [← loadWithin_ample] at hload
  obtain ⟨steps, hrun⟩ := runWith_of_fault hload hfault
  rw [← run_of_parse hargs] at hrun
  obtain ⟨_, ⟨_, _, _, hnone, _⟩ | ⟨p, source, fault, hloads, hfacts, htells⟩⟩ |
    ⟨_, _, _, _, _, hshows⟩ := report_of_run hargs hrun
  · exact absurd ⟨_, _, loads_wideStatement⟩ hnone
  · rw [loadWithin_ample] at hload
    cases hload.symm.trans (loadIn_eq_ok_iff.mpr hloads)
    cases hfault.symm.trans hfacts
    exact ⟨_, hrun, htells⟩
  · cases hshows.exit

/-- Without a directory for tables, a run that does not crash over the files gives a report. -/
theorem exists_report_of_runWith (environment : Environment) (hdir : settings.factsDir = none)
    (hfile : settings.program.render ≠ "") (hroom : Fits room t settings)
    (hnames : NamesAreTexts t settings) (h : ¬ LoadCrashes t settings) :
    ∃ report, (runWith Tree.fileSystem room environment settings).run t = (.ok report, t) ∧
      (report.exit = 0 ∨ report.exit = 1) ∧
      ((¬ ∃ p source, Loads t settings p source) →
        ∃ code message, LoadFails t settings code message ∧
          Tells settings.json settings.verbosity report settings.program.render "load" code
            message) := by
  obtain ⟨crash, hload, _⟩ | ⟨failure, hload, hway⟩ | ⟨p, source, fault, steps, hloads, _, hway⟩ |
    ⟨p, source, f, steps, hloads, _, hway⟩ := runWith_cases room environment settings t
  · rw [loadWithin_of_fits hroom] at hload
    exact absurd ((loadIn_crash_iff hnames).mp ⟨crash, hload⟩) h
  · obtain ⟨hfails, htells⟩ := tells_of_loadIn hfile hload
    exact ⟨_, hway, .inr htells.exit, fun _ => ⟨_, _, hfails, htells⟩⟩
  · have htells := tells_fault hfile steps fault
    exact ⟨_, hway, .inr htells.exit, fun hno => absurd ⟨p, source, hloads⟩ hno⟩
  · rw [finish_of_none hdir] at hway
    have hshows := shows_successReport settings (Progress.log settings.verbosity steps) f
    exact ⟨_, hway, .inl hshows.exit, fun hno => absurd ⟨p, source, hloads⟩ hno⟩

/-- With room for the program, and with names that are texts, a run without a directory for tables
crashes exactly over files that cannot be asked for or are no text, over a number that is too long
and over a string without bytes. Otherwise it reports, and if nothing can be loaded it tells of
that. -/
theorem crashes_iff_unreadable (hargs : parse arguments = .ok settings)
    (hdir : asksFor arguments .factsDir = false) (hroom : Fits room t settings)
    (hnames : NamesAreTexts t settings) :
    ((∃ crash, (run Tree.fileSystem room environment arguments).run t = (.error crash, t)) ↔
      LoadCrashes t settings) ∧
    (¬ LoadCrashes t settings → ∃ report,
      (run Tree.fileSystem room environment arguments).run t = (.ok report, t) ∧
      (report.exit = 0 ∨ report.exit = 1) ∧
      ((¬ ∃ p source, Loads t settings p source) →
        ∃ code message, LoadFails t settings code message ∧
          Tells (asksFor arguments .json) settings.verbosity report settings.program.render "load"
            code message)) := by
  have hnone : settings.factsDir = none := by
    rw [← isSome_factsDir_of_parse hargs, Option.isSome_eq_false_iff] at hdir
    exact Option.isNone_iff_eq_none.mp hdir
  have hreport := exists_report_of_runWith environment hnone (program_shown_of_parse hargs) hroom
    hnames
  rw [run_of_parse hargs, ← json_of_parse hargs]
  refine ⟨⟨?_, ?_⟩, hreport⟩
  · rintro ⟨crash, hcrash⟩
    by_contra hno
    obtain ⟨report, hran, _⟩ := hreport hno
    cases hcrash.symm.trans hran
  · intro h
    obtain ⟨crash, hload⟩ := (loadIn_crash_iff hnames).mpr h
    rw [← loadWithin_of_fits hroom] at hload
    exact ⟨crash, runWith_of_crash hload⟩

/-- A program that is a list, and a source beside it. -/
def listFiles : Tree :=
  ⟨[(["prog.json"], .file ((Json.list []).render ++ "\n").toUTF8),
    (["main.rs"], .file "x;".toUTF8)]⟩

def listSettings : Settings :=
  ⟨.ofText "prog.json", some (.path (.ofText "main.rs")), none, false, none, 0⟩

theorem holdsText_listFiles {text : String} :
    HoldsText listFiles listSettings.program text ↔ text = (Json.list []).render ++ "\n" := by
  have hlines : Text.unifyLineEnds ((Json.list []).render ++ "\n").toList =
      ((Json.list []).render ++ "\n").toList := by decide +kernel
  have hfile : bytesIn listFiles listSettings.program =
      .ok ((Json.list []).render ++ "\n").toUTF8 := rfl
  have htext : Document.textOfBytes ((Json.list []).render ++ "\n").toUTF8 =
      .ok ((Json.list []).render ++ "\n") := by
    rw [textOfBytes_eq_ok_iff]
    refine ⟨_, rfl, ?_⟩
    rw [hlines, String.ofList_toList]
  rw [holdsText_iff, hfile]
  simp only [Except.ok.injEq, exists_eq_left', htext]
  exact eq_comm

/-- A program that was read and is refused is reported, whatever stands beside it. -/
theorem crashes_iff_unreadable_list :
    ∃ report, (run Tree.fileSystem .ample [] ["prog.json", "--source", "main.rs"]).run listFiles =
        (.ok report, listFiles) ∧
      Tells false 0 report "prog.json" "load" "ProgramFormatError"
        "$: expected dict, got list" := by
  have hargs : parse ["prog.json", "--source", "main.rs"] = .ok listSettings := rfl
  have hfile := program_shown_of_parse hargs
  have hread : Json.read ((Json.list []).render ++ "\n") = .ok (.list []) :=
    Json.read_render trivial
  have hnames : NamesAreTexts listFiles listSettings := by
    intro text doc hholds hdoc
    rw [holdsText_listFiles.mp hholds, hread] at hdoc
    cases hdoc
    rfl
  have hsource : GivenSource listFiles listSettings.source (some "x;") :=
    .file ⟨rfl, "x;", rfl, rfl⟩
  have hrefused : Document.load (.list []) (some (.text "x;")) =
      .error (.malformed ⟨[], .wrongKind .object .list⟩) := rfl
  have hload : loadIn listFiles listSettings =
      .error (.failure ⟨some .load, "ProgramFormatError", "$: expected dict, got list"⟩) :=
    (loadIn_failure_iff hfile).mpr
      ⟨rfl, .malformed hsource (holdsText_listFiles.mpr rfl) hread hrefused⟩
  have hcrash : ¬ LoadCrashes listFiles listSettings := by
    rw [← loadIn_crash_iff hnames, hload]
    rintro ⟨crash, ⟨⟩⟩
  have hloads : ¬ ∃ p source, Loads listFiles listSettings p source := by
    rintro ⟨p, source, hloads⟩
    rw [← loadIn_eq_ok_iff, hload] at hloads
    cases hloads
  have hroom : Fits .ample listFiles listSettings := fun _ _ => rfl
  obtain ⟨report, hrun, _, htold⟩ := (crashes_iff_unreadable hargs rfl hroom hnames).2 hcrash
  obtain ⟨code, message, hfails, htells⟩ := htold hloads
  -- The failure that is told is the one that the load ends with.
  have hsame : loadIn listFiles listSettings = .error (.failure ⟨some .load, code, message⟩) :=
    (loadIn_failure_iff hfile).mpr ⟨rfl, hfails⟩
  cases hload.symm.trans hsame
  exact ⟨report, hrun, htells⟩

def garbledFiles : Tree :=
  ⟨[(["prog.json"], .file ⟨#[0xFF]⟩)]⟩

def plainSettings : Settings :=
  ⟨.ofText "prog.json", none, none, false, none, 0⟩

/-- Bytes that are no text end a run without a report. -/
theorem run_garbledFiles :
    (run Tree.fileSystem .ample [] ["prog.json"]).run garbledFiles =
      (.error (.undecodable ⟨0xFF, 0, 1, .invalidStart⟩), garbledFiles) := by
  have hargs : parse ["prog.json"] = .ok plainSettings := rfl
  have hload : loadIn garbledFiles plainSettings =
      .error (.crash (.undecodable ⟨0xFF, 0, 1, .invalidStart⟩)) := by
    with_unfolding_all rfl
  rw [run_of_parse hargs]
  rw [← loadWithin_ample] at hload
  exact runWith_of_crash hload

end OriginFacts.CommandLine
