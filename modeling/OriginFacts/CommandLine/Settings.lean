import OriginFacts.CommandLine.Word
import OriginFacts.Files.Path
import OriginFacts.Node

/-!
What the arguments of the command line ask for. Options may stand anywhere. Arguments are read as by
release 3.11 of the option parser. Newer releases differ for a separator that is attached to an
option and for unknown letters in a cluster.
-/

namespace OriginFacts.CommandLine

/-- The value of an option that names a file. -/
inductive FileValue where
  | nameless
  | path (path : Files.Path)
deriving DecidableEq, Repr

/-- The value that a text stands for. A separator attached to an option is dropped like any other
and leaves no name. This is so in release 3.11 of the option parser, but not in newer ones. -/
def FileValue.ofText (text : String) : FileValue :=
  if text == "--" then .nameless else .path (.ofText text)

/-- What the arguments ask for. -/
structure Settings where
  program : Files.Path
  source : Option FileValue
  naming : Option Naming
  json : Bool
  factsDir : Option FileValue
  verbosity : Nat
deriving DecidableEq, Repr

/-- Why the arguments lead to no run: help is asked for, or they are refused. -/
inductive Stop where
  | help
  | usage (error : UsageError)
deriving DecidableEq, Repr

/-! ## Reading the arguments -/

/-- What the arguments read so far ask for. -/
structure State where
  program : Option String := none
  source : Option String := none
  simpleNodes : Bool := false
  verboseNodes : Bool := false
  naming : Option Naming := none
  json : Bool := false
  factsDir : Option String := none
  verbosity : Nat := 0
  extras : List String := []

/-- The options of a cluster of letters behind one dash: the option whose letter came first, then
one for each further letter. -/
def cluster (flag : Flag) : List Char → Except UsageError (List Flag)
  | [] => .ok [flag]
  | c :: cs =>
    match Flag.ofSpelling? (String.ofList ['-', c]) with
    | some next => do return flag :: (← cluster next cs)
    | none => .error (.ignoredValue flag (String.ofList (c :: cs)))

/-- The options of a word that takes no value. Only letters behind a single dash may follow. -/
def flagsOf (flag : Flag) (spelling : String) : Option String → Except UsageError (List Flag)
  | none => .ok [flag]
  | some attached =>
    if ['-', '-'].isPrefixOf spelling.toList || attached.isEmpty then
      .error (.ignoredValue flag attached)
    else cluster flag attached.toList

/-- Applies an option without a value. The two ways of naming nodes exclude each other. -/
def State.apply (s : State) : Flag → Except Stop State
  | .help => .error .help
  | .simpleNodes =>
    if s.verboseNodes then .error (.usage (.conflict .simpleNodes .verboseNodes))
    else .ok { s with simpleNodes := true, naming := some .letters }
  | .verboseNodes =>
    if s.simpleNodes then .error (.usage (.conflict .verboseNodes .simpleNodes))
    else .ok { s with verboseNodes := true, naming := some .verbose }
  | .json => .ok { s with json := true }
  | .verbose => .ok { s with verbosity := s.verbosity + 1 }
  | .source => .ok s
  | .factsDir => .ok s

/-- Applies an option with its value. -/
def State.applyValue (s : State) (flag : Flag) (value : String) : State :=
  match flag with
  | .source => { s with source := some value }
  | .factsDir => { s with factsDir := some value }
  | _ => s

def State.extra (s : State) (argument : String) : State :=
  { s with extras := s.extras ++ [argument] }

/-- Reads the arguments from left to right. The first plain one is the program, together with a
separator next to it; what has no use is kept as an extra. -/
def scan (s : State) : List Word → Except Stop State
  | [] => .ok s
  | .plain text :: words =>
    if s.program.isSome then scan (s.extra text) words
    else
      match words with
      | .separator :: rest => scan { s with program := some text } rest
      | rest => scan { s with program := some text } rest
  | .separator :: words =>
    if s.program.isSome then scan (s.extra "--") words
    else
      match words with
      | .plain text :: rest => scan { s with program := some text } rest
      | rest => scan (s.extra "--") rest
  | .unknown text :: words => scan (s.extra text) words
  | .flag flag spelling attached :: words =>
    if flag.takesValue then
      match attached with
      | some value => scan (s.applyValue flag value) words
      | none =>
        match words with
        | .plain value :: rest => scan (s.applyValue flag value) rest
        | _ => .error (.usage (.expectedValue flag))
    else
      match flagsOf flag spelling attached with
      | .error error => .error (.usage error)
      | .ok flags =>
        match flags.foldlM State.apply s with
        | .error stop => .error stop
        | .ok s => scan s words

/-- What the arguments ask for. -/
def parse (arguments : List String) : Except Stop Settings := do
  let words ← (classifyAll arguments).mapError .usage
  let s ← scan {} words
  match s.program with
  | none => .error (.usage .missingProgram)
  | some program =>
    if s.extras.isEmpty then
      return {
        program := .ofText program
        source := s.source.map .ofText
        naming := s.naming
        json := s.json
        factsDir := s.factsDir.map .ofText
        verbosity := s.verbosity }
    else .error (.usage (.unrecognized s.extras))

end OriginFacts.CommandLine
