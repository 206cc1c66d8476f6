import OriginFacts.CommandLine.Run

/-! The command line on the file system of the machine. -/

namespace OriginFacts.CommandLine

/-- Whether a code stands for a refusal. The system gives the number of a refusal with either
sign. -/
def standsFor (code : UInt32) (refusal : Files.Refusal) : Bool :=
  let number := refusal.number.toUInt32
  code == number || code == 0 - number

/-- The refusal behind an error of the system. -/
def refusalOf : IO.Error → Files.Refusal
  | .alreadyExists .. => .occupied
  | .inappropriateType _ code _ =>
    if standsFor code .isDirectory then .isDirectory else .notDirectory
  | .invalidArgument _ code _ => if standsFor code .nameTooLong then .nameTooLong else .missing
  | _ => .missing

/-- Runs an action on a path. -/
def attempt {α : Type} (path : Files.Path) (action : String → IO α) :
    IO (Except Files.Error α) := do
  try
    return .ok (← action path.render)
  catch e => return .error ⟨refusalOf e, path⟩

/-- The file system of the machine. -/
def machine : FileSystem IO where
  read path := attempt path fun name => IO.FS.readBinFile name
  write path text := attempt path fun name => IO.FS.writeFile name text
  makeDirectory path := attempt path fun name => IO.FS.createDir name
  isDirectory path := do ((← IO.currentDir) / path.render).isDir

/-- Nothing is known beforehand of what the machine has room for. -/
def machineRoom : Room where
  exhausted? _ := none

/-- The variables of the machine that a run looks at. -/
def environment : IO Environment :=
  Environment.names.filterMapM fun name => do
    return (← IO.getEnv name).map fun value => (name, value)

end OriginFacts.CommandLine

open OriginFacts.CommandLine in
/-- Runs the command line. -/
def main (arguments : List String) : IO UInt32 := do
  match ← run machine machineRoom (← environment) arguments with
  | .ok report =>
    IO.eprint report.err
    IO.print report.out
    return report.exit.toUInt32
  | .error crash =>
    IO.eprintln (crash.code ++ ": " ++ crash.message)
    return 1
