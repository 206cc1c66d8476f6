import OriginFacts.CommandLine.Help
import OriginFacts.CommandLine.Settings
import OriginFacts.Diagnostic
import OriginFacts.Facts.Listing

/-! What a run prints, and the code that it ends with. -/

namespace OriginFacts.CommandLine

/-- What a run leaves behind: its exit code and what it printed. -/
structure Report where
  exit : Nat
  out : String := ""
  err : String := ""
deriving DecidableEq, Repr

/-- The report on arguments that lead to no run, in lines of a width. -/
def Stop.report (width : Nat) : Stop → Report
  | .help => { exit := 0, out := helpText width }
  | .usage error =>
    { exit := 2, err := usageText width ++ commandName ++ ": error: " ++ error.message ++ "\n" }

/-- The report on a failure, behind what was logged before. -/
def failureReport (settings : Settings) (log : String) (failure : Failure) : Report :=
  let diagnostic := failure.diagnostic (some settings.program.render)
  if settings.json then
    let json := Json.object [("exit_code", .int 1), ("diagnostics", .list [diagnostic.toJson])]
    { exit := 1, out := json.render ++ "\n", err := log }
  else { exit := 1, err := log ++ diagnostic.render ++ "\n" }

/-- A fact base for a tool: every relation with its rows. -/
def factsJson (facts : Facts) : Json :=
  .object (Relation.all.map fun r =>
    (r.name, .list ((facts.rows r).map fun row => .list (row.map fun column => .str (.text column)))))

/-- The report on a finished extraction. -/
def successReport (settings : Settings) (log : String) (facts : Facts) : Report :=
  if settings.json then
    let json := Json.object [("exit_code", .int 0), ("facts", factsJson facts)]
    { exit := 0, out := json.render ++ "\n", err := log }
  else { exit := 0, out := facts.render, err := log }

end OriginFacts.CommandLine
