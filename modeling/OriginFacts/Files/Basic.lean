import OriginFacts.Diagnostic
import OriginFacts.Files.Path
import OriginFacts.Text.Literal

/-! What a program can ask of the file system, and how that can be refused. -/

namespace OriginFacts.Files

/-- Why the system refuses an operation. -/
inductive Refusal where
  | missing
  | occupied
  | notDirectory
  | isDirectory
  | nameTooLong
deriving DecidableEq, Repr

/-- The number of a refusal. -/
def Refusal.number : Refusal → Nat
  | .missing => 2
  | .occupied => 17
  | .notDirectory => 20
  | .isDirectory => 21
  | .nameTooLong => 36

def Refusal.message : Refusal → String
  | .missing => "No such file or directory"
  | .occupied => "File exists"
  | .notDirectory => "Not a directory"
  | .isDirectory => "Is a directory"
  | .nameTooLong => "File name too long"

/-- The code of a refusal in diagnostics. -/
def Refusal.code : Refusal → String
  | .missing => "FileNotFoundError"
  | .occupied => "FileExistsError"
  | .notDirectory => "NotADirectoryError"
  | .isDirectory => "IsADirectoryError"
  | .nameTooLong => "OSError"

/-- A refusal and the path that it is about. -/
structure Error where
  refusal : Refusal
  path : Path
deriving DecidableEq, Repr

def Error.message (e : Error) : String :=
  "[Errno " ++ toString e.refusal.number ++ "] " ++ e.refusal.message ++ ": " ++
    Literal.render e.path.render

/-- A file that cannot be read keeps a program from being loaded. -/
def Error.failure (e : Error) : Failure :=
  ⟨some .load, e.refusal.code, e.message⟩

end OriginFacts.Files

namespace OriginFacts

/-- The operations of a file system, in a monad of its own, on paths without a null character.
`makeDirectory` makes one directory at a free place of a directory that is there. -/
structure FileSystem (m : Type → Type) where
  read : Files.Path → m (Except Files.Error ByteArray)
  write : Files.Path → String → m (Except Files.Error Unit)
  makeDirectory : Files.Path → m (Except Files.Error Unit)
  isDirectory : Files.Path → m Bool

namespace FileSystem

variable {m : Type → Type} [Monad m]

/-- Makes a directory unless it is there. -/
def ensureOne (files : FileSystem m) (path : Files.Path) : m (Except Files.Error Unit) := do
  match ← files.makeDirectory path with
  | .ok () => return .ok ()
  | .error e =>
    if e.refusal ≠ .missing ∧ (← files.isDirectory path) then return .ok ()
    else return .error e

/-- Makes the directory whose parts, last one first, are given. If one above it is missing, that is
made before it. -/
def ensureParts (files : FileSystem m) (slashes : Nat) : List String → m (Except Files.Error Unit)
  | [] => return .ok ()
  | part :: above => do
    let path : Files.Path := ⟨slashes, (part :: above).reverse⟩
    match ← files.ensureOne path with
    | .ok () => return .ok ()
    | .error e =>
      if e.refusal = .missing then
        match ← files.ensureParts slashes above with
        | .ok () => files.ensureOne path
        | .error e => return .error e
      else return .error e

/-- Makes a directory and those above it, as far as they are missing. -/
def ensureDirectory (files : FileSystem m) (path : Files.Path) : m (Except Files.Error Unit) :=
  files.ensureParts path.slashes path.parts.reverse

end FileSystem

end OriginFacts
