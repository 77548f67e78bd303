/-!
# Disk — reading and writing files

What a command does to files is written once, for any monad that can read, write and make
directories.  `Files` is such a world that consists of a list of files.
-/

namespace GraphScript

/-- Why a file operation failed. -/
inductive DiskError where
  | system (code : Nat) (reason : String)
  /-- A file that is to be read as text is none. -/
  | notText
  deriving DecidableEq, Repr

namespace DiskError

/-- Something in a path is missing. -/
def notFound : DiskError := .system 2 "No such file or directory"

/-- What is to be made is there already. -/
def alreadyExists : DiskError := .system 17 "File exists"

/-- Something in a path is not a directory but should be. -/
def notDirectory : DiskError := .system 20 "Not a directory"

/-- What should be a file is a directory. -/
def isDirectory : DiskError := .system 21 "Is a directory"

/-- The wording of a failure. -/
def message : DiskError → String
  | .system code reason => s!"{reason} (os error {code})"
  | .notText => "stream did not contain valid UTF-8"

end DiskError

/-- The file operations of a world. -/
structure Disk (m : Type → Type) where
  read : String → m (Except DiskError String)
  write : String → String → m (Except DiskError Unit)
  makeDirectory : String → m (Except DiskError Unit)
  hasDirectory : String → m Bool

namespace Disk

variable {m : Type → Type} [Monad m]

/-- A path inside a directory. -/
def join (directory name : String) : String :=
  if directory.isEmpty || directory.endsWith "/" then directory ++ name
  else directory ++ "/" ++ name

/-- The paths of which each lies in the next, from the parts of the first and what stands before
them. -/
def chain (start : String) : List String → List String
  | [] => []
  | c :: r =>
    let path := join start c
    chain path r ++ [path]

/-- A path and the directories it lies in, the innermost first. -/
def ancestry (path : String) : List String :=
  let parts := (path.splitOn "/").filter (fun c => !c.isEmpty)
  if path.startsWith "/" then chain "/" parts ++ ["/"] else chain "" parts

/-- What a failed attempt to make a directory means: nothing, if the directory is there. -/
def tolerate (d : Disk m) (path : String) (e : DiskError) : m (Except DiskError Unit) := do
  if ← d.hasDirectory path then return .ok () else return .error e

/-- Makes the first of some directories, each of which lies in the next, and those that are missing
for it. -/
def makeChain (d : Disk m) : List String → m (Except DiskError Unit)
  | [] => return .ok ()
  | path :: outer => do
    match ← d.makeDirectory path with
    | .ok () => return .ok ()
    | .error e =>
      if e ≠ .notFound then d.tolerate path e
      else
        match ← d.makeChain outer with
        | .error e => return .error e
        | .ok () =>
          match ← d.makeDirectory path with
          | .ok () => return .ok ()
          | .error e => d.tolerate path e

/-- Makes a directory and those that it lies in. -/
def makeDirectories (d : Disk m) (path : String) : m (Except DiskError Unit) :=
  d.makeChain (ancestry path)

end Disk

/-! ## Files in a list -/

/-- Where a file is: the names of the directories it lies in, and its own. -/
abbrev Place := List String

/-- Files with their texts, and directories. -/
structure Files where
  files : List (Place × String) := []
  directories : List Place := []
  deriving Inhabited

/-- What can be at a place. -/
inductive Resident where
  | file (text : String)
  | directory
  deriving DecidableEq, Repr

namespace Files

/-- What is at a place. -/
def find? (fs : Files) (p : Place) : Option Resident :=
  match fs.files.lookup p with
  | some text => some (.file text)
  | none =>
    if p.isEmpty || (fs.directories ++ fs.files.map (·.1)).any (p.isPrefixOf ·) then
      some .directory
    else none

/-- The place that the parts of a path lead to.  All but the last must be directories. -/
def walk (fs : Files) : Place → List String → Except DiskError Place
  | p, [] => .ok p
  | p, c :: rest =>
    if c = "" || c = "." then fs.walk p rest
    else if c = ".." then fs.walk p.dropLast rest
    else if rest.isEmpty then .ok (p ++ [c])
    else
      match fs.find? (p ++ [c]) with
      | some .directory => fs.walk (p ++ [c]) rest
      | some (.file _) => .error .notDirectory
      | none => .error .notFound

/-- The place that a path leads to. -/
def locate (fs : Files) (path : String) : Except DiskError Place := fs.walk [] (path.splitOn "/")

/-- The text of a file. -/
def read (fs : Files) (path : String) : Except DiskError String := do
  match fs.find? (← fs.locate path) with
  | some (.file text) => .ok text
  | some .directory => .error .isDirectory
  | none => .error .notFound

/-- Replaces a file, or adds one. -/
def put (p : Place) (text : String) : List (Place × String) → List (Place × String)
  | [] => [(p, text)]
  | f :: r => if f.1 = p then (p, text) :: r else f :: put p text r

/-- Writes a file. -/
def write (fs : Files) (path text : String) : Except DiskError Files := do
  let p ← fs.locate path
  match fs.find? p with
  | some .directory => .error .isDirectory
  | _ => .ok { fs with files := put p text fs.files }

/-- Makes a directory. -/
def makeDirectory (fs : Files) (path : String) : Except DiskError Files := do
  let p ← fs.locate (String.ofList (path.toList.reverse.dropWhile (· = '/')).reverse)
  match fs.find? p with
  | some _ => .error .alreadyExists
  | none => .ok { fs with directories := fs.directories ++ [p] }

/-- Whether a path leads to a directory. -/
def hasDirectory (fs : Files) (path : String) : Bool :=
  match fs.locate path with
  | .ok p => fs.find? p = some .directory
  | .error _ => false

/-- Keeps what an operation made of the files. -/
def keep (r : Except DiskError Files) : StateM Files (Except DiskError Unit) := do
  match r with
  | .ok fs =>
    set fs
    return .ok ()
  | .error e => return .error e

/-- The operations on files in a list. -/
def disk : Disk (StateM Files) where
  read path := do return (← get).read path
  write path text := do keep ((← get).write path text)
  makeDirectory path := do keep ((← get).makeDirectory path)
  hasDirectory path := do return (← get).hasDirectory path

end Files

end GraphScript
