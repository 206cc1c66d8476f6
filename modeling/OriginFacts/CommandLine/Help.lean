import OriginFacts.CommandLine.Flag
import OriginFacts.Text.Filling

/-! How the command is called, and what its options do, laid out for lines of a given width. -/

namespace OriginFacts.CommandLine

/-- What the command does. -/
def description : String := "Emit borrow-check facts for a parsed program"

/-- The name of the argument that is no option. -/
def programName : String := "program"

def programSummary : String := "Path to the program (JSON interchange format)"

/-- What an option does. -/
def Flag.summary : Flag → String
  | .help => "show this help message and exit"
  | .source => "Source text file; overrides the program's embedded `source`"
  | .simpleNodes => "Name nodes with single letters (default when SIMPLE_NODES is set)"
  | .verboseNodes => "Name nodes `block[index]`"
  | .json => "Print relations (and diagnostics) as JSON"
  | .factsDir => "Also write one tab-separated .facts file per relation here"
  | .verbose => "Log progress (-v: info, -vv: debug)"

/-- A spelling of an option together with its value. -/
def Flag.withValue (f : Flag) (spelling : String) : String :=
  match f.valueName? with
  | some name => spelling ++ " " ++ name
  | none => spelling

/-- All spellings of an option. -/
def Flag.invocation (f : Flag) : String :=
  ", ".intercalate (f.spellings.map f.withValue)

def blanks (n : Nat) : String :=
  String.ofList (List.replicate n ' ')

/-! ## Usage -/

/-- The options in order. Those of one group exclude each other. -/
def optionGroups : List (List Flag) :=
  [[.help], [.source], [.simpleNodes, .verboseNodes], [.json], [.factsDir], [.verbose]]

/-- The options, each group in brackets, by their first spellings. -/
def optionForms : List String :=
  optionGroups.map fun group =>
    "[" ++ " | ".intercalate (group.flatMap fun f => f.spellings.take 1 |>.map f.withValue) ++ "]"

/-- Puts forms on lines with blanks between them, as many on each as fit. The next form would start
at `column`, behind the forms in `line`; further lines start at `indent`. -/
def formLines (width indent column : Nat) (line : List String) : List String → List (List String)
  | [] => if line.isEmpty then [] else [line]
  | form :: forms =>
    if width < column + form.length && !line.isEmpty then
      line :: formLines width indent (indent + form.length + 1) [form] forms
    else formLines width indent (column + form.length + 1) (line ++ [form]) forms

def usageOpening : String := "usage: "

/-- How to call the command: on one line if it fits, else options and program on lines of their own,
behind the name of the command or, where that takes up too much of the width, below it. -/
def usageText (width : Nat) : String :=
  let whole := usageOpening ++ " ".intercalate (commandName :: optionForms ++ [programName])
  let opening := usageOpening.length
  let name := opening + commandName.length
  if whole.length ≤ width then whole ++ "\n"
  else
    let (indent, lines) :=
      if 4 * name ≤ 3 * width then
        (name + 1,
          formLines width (name + 1) opening [] (commandName :: optionForms) ++ [[programName]])
      else
        (opening, [commandName] :: formLines width opening opening [] optionForms ++ [[programName]])
    usageOpening ++ ("\n" ++ blanks indent).intercalate (lines.map (" ".intercalate ·)) ++ "\n"

/-! ## Help -/

/-- The least width of a text. -/
def minTextWidth : Nat := 11

/-- The column at which summaries start. -/
def summaryColumn (width : Nat) : Nat :=
  min 24 (max (width - 20) 4)

/-- An argument with its summary beside it or, where it is too long, below it. -/
def helpEntry (width : Nat) (invocation summary : String) : String :=
  let column := summaryColumn width
  let lines := Text.fill (max (width - column) minTextWidth) summary
  let gap :=
    if invocation.length + 4 ≤ column then blanks (column - 2 - invocation.length)
    else "\n" ++ blanks column
  "  " ++ invocation ++ gap ++ ("\n" ++ blanks column).intercalate lines ++ "\n"

/-- What the command and its arguments do. -/
def helpText (width : Nat) : String :=
  usageText width ++
  "\n" ++
  "\n".intercalate (Text.fill (max width minTextWidth) description) ++ "\n" ++
  "\n" ++
  "positional arguments:\n" ++
  helpEntry width programName programSummary ++
  "\n" ++
  "options:\n" ++
  String.join (Flag.all.map fun f => helpEntry width f.invocation f.summary)

end OriginFacts.CommandLine
