import OriginFacts.Files.Basic

/-!
A file system kept in memory: the files and directories below a working directory. Outside of it,
the directories above it and the root are always there.
-/

namespace OriginFacts.Files

/-- What stands at a place of the tree. -/
inductive Entry where
  | file (bytes : ByteArray)
  | directory

/-- The way to a place of the tree: the names of the directories and of the place itself. A leading
`/` is the root, and leading `..` are directories above the working directory. -/
abbrev Route := List String

/-- The known entries, each place once. The working directory itself is always there. -/
structure Tree where
  entries : List (Route × Entry) := []

namespace Tree

/-- What stands at a place. -/
def entryAt? (t : Tree) (route : Route) : Option Entry :=
  if route.all (· == "..") || route == ["/"] then some .directory
  else t.entries.lookup route

/-- Puts an entry at a place. -/
def insert (t : Tree) (route : Route) (entry : Entry) : Tree :=
  if t.entries.any (·.1 == route) then
    ⟨t.entries.map fun e => if e.1 == route then (route, entry) else e⟩
  else ⟨t.entries ++ [(route, entry)]⟩

/-- The route one step further. Two dots lead to the directory above. -/
def step (route : Route) (name : String) : Route :=
  if name == ".." then
    if route == ["/"] then route
    else if route.all (· == "..") then route ++ [".."]
    else route.dropLast
  else route ++ [name]

/-- The most bytes that a name may have. -/
def maxNameBytes : Nat := 255

/-- The most bytes that a path may have as text. -/
def maxPathBytes : Nat := 4095

/-- Walks names from a place. Every place that is walked through has to be a directory, and a name
that is looked up in it must not be too long. -/
def walk (t : Tree) (route : Route) : List String → Except Refusal Route
  | [] => .ok route
  | name :: names =>
    match t.entryAt? route with
    | some .directory =>
      if maxNameBytes < name.utf8ByteSize then .error .nameTooLong
      else t.walk (step route name) names
    | some (.file _) => .error .notDirectory
    | none => .error .missing

/-- The place that a path leads to, whether something stands there or not. -/
def find (t : Tree) (path : Path) : Except Refusal Route :=
  if maxPathBytes < path.render.utf8ByteSize then .error .nameTooLong
  else t.walk (if path.slashes = 0 then [] else ["/"]) path.parts

/-- The bytes of a file. -/
def read (t : Tree) (path : Path) : Except Error ByteArray :=
  match t.find path with
  | .error refusal => .error ⟨refusal, path⟩
  | .ok route =>
    match t.entryAt? route with
    | some (.file bytes) => .ok bytes
    | some .directory => .error ⟨.isDirectory, path⟩
    | none => .error ⟨.missing, path⟩

/-- Writes a whole file, new or not. -/
def write (t : Tree) (path : Path) (text : String) : Except Error Tree :=
  match t.find path with
  | .error refusal => .error ⟨refusal, path⟩
  | .ok route =>
    match t.entryAt? route with
    | some .directory => .error ⟨.isDirectory, path⟩
    | _ => .ok (t.insert route (.file text.toUTF8))

/-- Makes one directory at a free place. -/
def makeDirectory (t : Tree) (path : Path) : Except Error Tree :=
  match t.find path with
  | .error refusal => .error ⟨refusal, path⟩
  | .ok route =>
    match t.entryAt? route with
    | some _ => .error ⟨.occupied, path⟩
    | none => .ok (t.insert route .directory)

/-- Whether a path leads to a directory. -/
def isDirectory (t : Tree) (path : Path) : Bool :=
  match t.find path with
  | .error _ => false
  | .ok route =>
    match t.entryAt? route with
    | some .directory => true
    | _ => false

/-- Runs a change of the tree; a refused one leaves it as it is. -/
def change (f : Tree → Except Error Tree) : StateM Tree (Except Error Unit) := do
  match f (← get) with
  | .ok t =>
    set t
    return .ok ()
  | .error e => return .error e

/-- The operations on a tree. -/
def fileSystem : FileSystem (StateM Tree) where
  read path := do return (← get).read path
  write path text := change (·.write path text)
  makeDirectory path := change (·.makeDirectory path)
  isDirectory path := do return (← get).isDirectory path

end Tree

end OriginFacts.Files
