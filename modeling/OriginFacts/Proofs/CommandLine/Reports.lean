import OriginFacts.CommandLine.Progress
import OriginFacts.CommandLine.Report
import OriginFacts.Proofs.Json.RoundTrip

/-!
What runs print. A failure is told by one diagnostic, which is a line for a reader or an object for
a tool, and both say in which file and which phase it was and what it was. Facts are printed as a
listing or as an object.
-/

namespace OriginFacts

/-! ## Diagnostics -/

/-- The value tells a tool of one failure. -/
structure Diagnostic.Shown (v : Json) (file phase code message : String) : Prop where
  file : v.get? "file" = some (.str file)
  phase : v.get? "phase" = some (.str phase)
  code : v.get? "code" = some (.str code)
  message : v.get? "message" = some (.str message)
  severity : v.get? "severity" = some (.str "error")
  notes : v.get? "notes" = some (.list [])

section

variable {failure : Failure} {phase : Phase} (h : failure.phase = some phase)

include h

theorem phase_diagnostic (file : Option String) :
    (failure.diagnostic file).phase = some phase.name := by
  rw [Failure.diagnostic, h]
  rfl

theorem shown_diagnostic (file : String) :
    Diagnostic.Shown (failure.diagnostic (some file)).toJson file phase.name failure.code
      failure.message := by
  refine ⟨rfl, ?_, rfl, rfl, rfl, rfl⟩
  show some (Diagnostic.optionalText (failure.diagnostic (some file)).phase) = _
  rw [phase_diagnostic h]
  rfl

theorem render_diagnostic {file : String} (hfile : file ≠ "") :
    (failure.diagnostic (some file)).render =
      file ++ ": error[" ++ phase.name ++ "]: " ++ failure.message := by
  have hshown : Diagnostic.nonempty? (some file) = some file := by
    simp [Diagnostic.nonempty?, hfile]
  have hname : Diagnostic.nonempty? (some phase.name) = some phase.name := by
    cases phase <;> rfl
  have hmark : ": error[" = ": " ++ "error" ++ "[" := rfl
  rw [Diagnostic.render, phase_diagnostic h, hname, hmark]
  simp [Failure.diagnostic, hshown, String.append_assoc]

end

namespace CommandLine

/-! ## Objects -/

/-- The text is one line that holds the value and reads back as it. -/
structure Prints (out : String) (v : Json) : Prop where
  line : out = v.render ++ "\n"
  reads : Json.read out = .ok v

theorem prints_render {v : Json} (h : v.Plain) : Prints (v.render ++ "\n") v :=
  ⟨rfl, Json.read_render h⟩

theorem plain_toJson (d : Diagnostic) : d.toJson.Plain := by
  have htext : ∀ text, (Diagnostic.optionalText text).Plain := by
    rintro (_ | _) <;> trivial
  have hnotes : Json.PlainItems (d.notes.map fun note => .str (.text note)) :=
    Json.plainItems_map fun _ _ => trivial
  have hkeys : (["phase", "message", "severity", "code", "file", "notes"].map
      RawString.text).Nodup := by decide
  exact ⟨hkeys, htext _, trivial, trivial, htext _, htext _, hnotes, trivial⟩

theorem plain_factsJson (f : Facts) : (factsJson f).Plain := by
  have hkeys : (Relation.all.map fun r => RawString.text r.name).Nodup := by decide
  refine ⟨by rw [List.map_map]; exact hkeys, Json.plainMembers_map fun r _ => ?_⟩
  exact Json.plainItems_map fun row _ => Json.plainItems_map fun _ _ => trivial

/-! ## Reports -/

/-- Besides what it logs, a failed run prints one diagnostic about a file: as a line, or as the only
one of an object that is all of the output. -/
structure Tells (json : Bool) (verbosity : Nat) (report : Report)
    (file phase code message : String) : Prop where
  exit : report.exit = 1
  text : json = false → report.out = "" ∧ ∃ steps, report.err =
    Progress.log verbosity steps ++ file ++ ": error[" ++ phase ++ "]: " ++ message ++ "\n"
  object : json = true → (∃ steps, report.err = Progress.log verbosity steps) ∧
    ∃ v, Prints report.out (.object [("exit_code", .int 1), ("diagnostics", .list [v])]) ∧
      Diagnostic.Shown v file phase code message

theorem tells_failureReport {settings : Settings} (hfile : settings.program.render ≠ "")
    (steps : List Progress) {failure : Failure} {phase : Phase}
    (h : failure.phase = some phase) :
    Tells settings.json settings.verbosity
      (failureReport settings (Progress.log settings.verbosity steps) failure)
      settings.program.render phase.name failure.code failure.message := by
  unfold failureReport
  cases settings.json with
  | false =>
      refine ⟨rfl, fun _ => ⟨rfl, steps, ?_⟩, nofun⟩
      simp only [render_diagnostic h hfile, Bool.false_eq_true, if_false, String.append_assoc]
  | true =>
      have hkeys : (["exit_code", "diagnostics"].map RawString.text).Nodup := by decide
      have hexit : Json.Readable 1 := by decide
      refine ⟨rfl, nofun, fun _ => ⟨⟨steps, rfl⟩, _, prints_render ?_, shown_diagnostic h _⟩⟩
      exact ⟨hkeys, hexit, ⟨plain_toJson _, trivial⟩, trivial⟩

/-- The output of a run that found these facts. -/
structure Shows (json : Bool) (report : Report) (f : Facts) : Prop where
  exit : report.exit = 0
  text : json = false → report.out = f.render
  object : json = true →
    Prints report.out (.object [("exit_code", .int 0), ("facts", factsJson f)])

theorem shows_successReport (settings : Settings) (log : String) (f : Facts) :
    Shows settings.json (successReport settings log f) f := by
  unfold successReport
  cases settings.json with
  | false => exact ⟨rfl, fun _ => rfl, nofun⟩
  | true =>
      have hkeys : (["exit_code", "facts"].map RawString.text).Nodup := by decide
      have hexit : Json.Readable 0 := by decide
      refine ⟨rfl, nofun, fun _ => prints_render ?_⟩
      exact ⟨hkeys, hexit, plain_factsJson f, trivial⟩

end CommandLine

end OriginFacts
