import OriginFacts.Text.Literal

/-! The options of the command line, and what can be wrong with their use. -/

namespace OriginFacts.CommandLine

/-- The name that the command goes by. -/
def commandName : String := "borrowfacts"

/-- The options. -/
inductive Flag where
  | help
  | source
  | simpleNodes
  | verboseNodes
  | json
  | factsDir
  | verbose
deriving DecidableEq, Repr

namespace Flag

def all : List Flag :=
  [help, source, simpleNodes, verboseNodes, json, factsDir, verbose]

/-- The spellings of an option. -/
def spellings : Flag → List String
  | help => ["-h", "--help"]
  | source => ["--source"]
  | simpleNodes => ["--simple-nodes"]
  | verboseNodes => ["--verbose-nodes"]
  | json => ["--json"]
  | factsDir => ["--facts-dir"]
  | verbose => ["-v", "--verbose"]

/-- An option in messages. -/
def label (f : Flag) : String :=
  "/".intercalate f.spellings

/-- What stands for the value of an option that takes one. -/
def valueName? : Flag → Option String
  | source => some "SOURCE"
  | factsDir => some "FACTS_DIR"
  | _ => none

/-- Whether the option takes a value. -/
def takesValue (f : Flag) : Bool :=
  f.valueName?.isSome

/-- Every spelling with its option, in the order of declaration. -/
def table : List (String × Flag) :=
  all.flatMap fun f => f.spellings.map fun s => (s, f)

def ofSpelling? (spelling : String) : Option Flag :=
  table.lookup spelling

end Flag

/-- Why the arguments are refused. -/
inductive UsageError where
  | ambiguous (argument : String) (spellings : List String)
  | expectedValue (flag : Flag)
  | ignoredValue (flag : Flag) (value : String)
  | conflict (flag other : Flag)
  | missingProgram
  | unrecognized (arguments : List String)
deriving DecidableEq, Repr

def UsageError.message : UsageError → String
  | .ambiguous argument spellings =>
    "ambiguous option: " ++ argument ++ " could match " ++ ", ".intercalate spellings
  | .expectedValue flag => "argument " ++ flag.label ++ ": expected one argument"
  | .ignoredValue flag value =>
    "argument " ++ flag.label ++ ": ignored explicit argument " ++ Literal.render value
  | .conflict flag other =>
    "argument " ++ flag.label ++ ": not allowed with argument " ++ other.label
  | .missingProgram => "the following arguments are required: program"
  | .unrecognized arguments => "unrecognized arguments: " ++ " ".intercalate arguments

end OriginFacts.CommandLine
