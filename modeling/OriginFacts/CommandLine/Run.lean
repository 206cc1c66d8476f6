import OriginFacts.CommandLine.Environment
import OriginFacts.CommandLine.Progress
import OriginFacts.CommandLine.Report
import OriginFacts.Document.File
import OriginFacts.Facts.Table
import OriginFacts.Files.Basic

/-!
A run of the command line: read a program, extract its facts, write and print them. Files are
reached through an interface only, so a run can be followed on files kept in memory; what the
machine has room for is given in the same way.
-/

namespace OriginFacts.CommandLine

/-- Failures that end a run without a report: bytes that are no text, a string that has no bytes, a
number that is too long, a program that the machine has no room for, a refused write, a path with a
null character, and an option that was left without a name. What becomes of a name that is no text
is left open. -/
inductive Crash where
  | undecodable (fault : Utf8.Fault)
  | unencodable (fault : EncodeFault)
  | longNumber (digits : Nat)
  | exhausted (message : String)
  | foreign (path : Document.Path)
  | file (error : Files.Error)
  | nullInPath
  | namelessSource
  | namelessDirectory
deriving DecidableEq, Repr

/-- The code of a crash. -/
def Crash.code : Crash → String
  | .undecodable _ => "UnicodeDecodeError"
  | .unencodable _ => "UnicodeEncodeError"
  | .longNumber _ => "ValueError"
  | .exhausted _ => "RecursionError"
  | .foreign _ => "UnicodeError"
  | .file error => error.refusal.code
  | .nullInPath => "ValueError"
  | .namelessSource => "AttributeError"
  | .namelessDirectory => "TypeError"

def Crash.message : Crash → String
  | .undecodable fault => fault.message
  | .unencodable fault => fault.message
  | .longNumber digits => (Json.Problem.longNumber digits).message
  | .exhausted message => message
  | .foreign path => Document.located path.render "not a text"
  | .file error => error.message
  | .nullInPath => "embedded null byte"
  | .namelessSource => "'list' object has no attribute 'read_text'"
  | .namelessDirectory => "expected str, bytes or os.PathLike object, not list"

/-- What a machine has room for. Values and types that are nested too deep can exhaust it, and how
deep that is is not up to the program: `exhausted? bytes` is the message that work on the bytes of a
program then ends with. -/
structure Room where
  exhausted? : ByteArray → Option String

variable {m : Type → Type} [Monad m]

/-! ## Loading -/

/-- Why nothing was loaded: a failure to report, or a crash. -/
inductive LoadProblem where
  | failure (failure : Failure)
  | crash (crash : Crash)

/-- The code of a document that describes no program. -/
def formatErrorCode : String := "ProgramFormatError"

def LoadProblem.ofFileError : Document.FileError → LoadProblem
  | .undecodable fault => .crash (.undecodable fault)
  | .longNumber digits => .crash (.longNumber digits)
  | .document (.unencodable fault) => .crash (.unencodable fault)
  | .document (.foreign path) => .crash (.foreign path)
  | .notJson file error =>
    .failure ⟨some .load, formatErrorCode,
      Document.located file ("invalid JSON: " ++ error.message)⟩
  | .document (.malformed error) => .failure ⟨some .load, formatErrorCode, error.message⟩

/-- The bytes of a file. -/
def fileBytes (files : FileSystem m) (path : Files.Path) : ExceptT LoadProblem m ByteArray := do
  if path.hasNull then throw (.crash .nullInPath)
  match ← files.read path with
  | .error e => throw (.failure e.failure)
  | .ok bytes => pure bytes

/-- The text of the source file, if one is asked for. -/
def sourceText (files : FileSystem m) (source : Option FileValue) :
    ExceptT LoadProblem m (Option String) :=
  match source with
  | none => pure none
  | some .nameless => throw (.crash .namelessSource)
  | some (.path path) => do
    match Document.textOfBytes (← fileBytes files path) with
    | .error fault => throw (.crash (.undecodable fault))
    | .ok text => pure (some text)

/-- The program and its source. The source file is read before the program. -/
def loadProgram (files : FileSystem m) (room : Room) (settings : Settings) :
    ExceptT LoadProblem m (Program × String) := do
  let override ← sourceText files settings.source
  let bytes ← fileBytes files settings.program
  if let some message := room.exhausted? bytes then throw (.crash (.exhausted message))
  match Document.loadBytes settings.program.render bytes (override.map .text) with
  | .error e => throw (.ofFileError e)
  | .ok loaded => pure loaded

/-! ## Writing -/

/-- Writes tables into a directory, in order. -/
def writeTables (files : FileSystem m) (directory : Files.Path) :
    List (String × String) → m (Except Files.Error Unit)
  | [] => pure (.ok ())
  | (name, text) :: tables => do
    match ← files.write (directory.child name) text with
    | .error e => return .error e
    | .ok () => writeTables files directory tables

/-- Makes a directory and writes one table for each relation into it. -/
def writeFacts (files : FileSystem m) (directory : Files.Path)
    (facts : Facts) : m (Except Crash Unit) := do
  if directory.hasNull then return .error .nullInPath
  match ← files.ensureDirectory directory with
  | .error e => return .error (.file e)
  | .ok () => return (← writeTables files directory facts.tables).mapError .file

/-! ## Runs -/

/-- Writes the facts if a directory is asked for, and reports. -/
def finish (files : FileSystem m) (settings : Settings)
    (steps : List Progress) (facts : Facts) : m (Except Crash Report) := do
  match settings.factsDir with
  | none => return .ok (successReport settings (Progress.log settings.verbosity steps) facts)
  | some .nameless => return .error .namelessDirectory
  | some (.path directory) =>
    match ← writeFacts files directory facts with
    | .error crash => return .error crash
    | .ok () =>
      let steps := steps ++ [.wrote facts.tables.length directory.render]
      return .ok (successReport settings (Progress.log settings.verbosity steps) facts)

/-- A run with settings. The naming of nodes is the one asked for, else the one of the
environment. -/
def runWith (files : FileSystem m) (room : Room) (environment : Environment)
    (settings : Settings) : m (Except Crash Report) := do
  let naming := settings.naming.getD environment.naming
  match ← (loadProgram files room settings).run with
  | .error (.crash crash) => return .error crash
  | .error (.failure failure) => return .ok (failureReport settings "" failure)
  | .ok (program, source) =>
    let x : Extraction := ⟨program, source.toUTF8, naming⟩
    let loaded := Progress.loaded settings.program.render program.blocks.length naming
    let steps := loaded :: extractionSteps x
    match x.facts with
    | .error fault =>
      return .ok (failureReport settings (Progress.log settings.verbosity steps) fault.failure)
    | .ok facts => finish files settings steps facts

/-- A run in an environment with arguments. -/
def run (files : FileSystem m) (room : Room) (environment : Environment)
    (arguments : List String) : m (Except Crash Report) :=
  match parse arguments with
  | .error stop => pure (.ok (stop.report environment.lineWidth))
  | .ok settings => runWith files room environment settings

end OriginFacts.CommandLine
