import OriginFacts.CommandLine.Flag
import OriginFacts.Facts.Emission
import OriginFacts.Text.Literal

/-! What a run can tell about its progress, and how much of it is shown. -/

namespace OriginFacts.CommandLine

/-- How much is shown. -/
inductive Level where
  | info
  | debug
deriving DecidableEq, Repr

/-- Whether a message of the level is shown at a verbosity. -/
def Level.isShown (verbosity : Nat) : Level → Bool
  | .info => 1 ≤ verbosity
  | .debug => 2 ≤ verbosity

/-- A step of a run. -/
inductive Progress where
  | loaded (program : String) (blocks : Nat) (naming : Naming)
  | loan (origin : Origin) (place : Place) (node : Node)
  | emitting (blocks statements loans : Nat)
  | block (name : String) (statements : Nat) (successors : List String)
  | emitted (counts : List (Relation × Nat))
  | wrote (files : Nat) (directory : String)

namespace Progress

def level : Progress → Level
  | loaded .. => .info
  | loan .. => .debug
  | emitting .. => .info
  | block .. => .debug
  | emitted .. => .info
  | wrote .. => .info

/-- The part of the command that reports the step. -/
def part : Progress → String
  | loaded .. => "cli"
  | loan .. => "loans"
  | emitting .. => "fact_emitter"
  | block .. => "fact_emitter"
  | emitted .. => "fact_emitter"
  | wrote .. => "cli"

/-- Counts in braces, each behind the name of its relation. -/
def renderCounts (counts : List (Relation × Nat)) : String :=
  let entries := counts.map fun (r, n) => Literal.render r.name ++ ": " ++ toString n
  "\x7b" ++ ", ".intercalate entries ++ "\x7d"

def message : Progress → String
  | loaded program blocks naming =>
    "Loaded " ++ program ++ " (" ++ toString blocks ++ " blocks, naming=" ++ naming.name ++ ")"
  | loan origin place node => "loan " ++ origin ++ " of `" ++ place.render ++ "` at " ++ node
  | emitting blocks statements loans =>
    "Emitting facts for " ++ toString blocks ++ " blocks, " ++ toString statements ++
      " statements (" ++ toString loans ++ " loans)"
  | block name statements successors =>
    "block " ++ name ++ ": " ++ toString statements ++ " statements, successors " ++
      Literal.renderList successors
  | emitted counts => "Emitted facts: " ++ renderCounts counts
  | wrote files directory => "Wrote " ++ toString files ++ " relation files to " ++ directory

/-- A step as a line. -/
def line (p : Progress) : String :=
  commandName ++ "." ++ p.part ++ ": " ++ p.message ++ "\n"

/-- The lines that are shown at a verbosity. -/
def log (verbosity : Nat) (steps : List Progress) : String :=
  String.join ((steps.filter (·.level.isShown verbosity)).map line)

end Progress

/-- The steps of finding the loans of a block. -/
def loanSteps (b : Block) : List Progress :=
  (b.loans 0).map fun (place, l) =>
    .loan l.origin place (Node.verbose b.name l.location.statement)

/-- The steps of an extraction up to its end or its first fault. -/
def extractionSteps (x : Extraction) : List Progress :=
  let p := x.program
  p.blocks.flatMap loanSteps ++
  [.emitting p.blocks.length p.statementCount p.loanIndex.size] ++
  (x.entered p.blocks).map (fun b => .block b.name b.statements.length b.successors) ++
  match x.facts with
  | .ok facts => [.emitted facts.counts]
  | .error _ => []

end OriginFacts.CommandLine
