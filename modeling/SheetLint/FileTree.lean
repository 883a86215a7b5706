import SheetLint.Path

/-!
# File systems

A file system is a tree of directories and files. Paths lead through it, from its root or from the
working directory.
-/

namespace SheetLint

/-- A file with its bytes, or a directory with its entries. -/
inductive FileTree where
  | file (content : ByteArray)
  | directory (entries : List (EntryName × FileTree))

/-- Why a file cannot be read. The last cause is for parsers that read files in their own way. -/
inductive ReadError where
  | missing
  | notDirectory
  | isDirectory
  | notText
  | other (message : String)
  deriving DecidableEq, Repr

/-- The reason in words. -/
def ReadError.message : ReadError → String
  | missing => "No such file or directory (os error 2)"
  | notDirectory => "Not a directory (os error 20)"
  | isDirectory => "Is a directory (os error 21)"
  | notText => "stream did not contain valid UTF-8"
  | other message => message

namespace FileTree

/-- A directory with nothing in it. -/
def empty : FileTree := directory []

/-- What is in a directory. -/
def entries : FileTree → List (EntryName × FileTree)
  | file _ => []
  | directory entries => entries

/-- The entry of a directory with this name. -/
def child? (t : FileTree) (name : List UInt8) : Option (EntryName × FileTree) :=
  t.entries.find? (·.1.bytes == name)

/-- What some names lead to, each of them the name of an entry. -/
def descend? (t : FileTree) (names : List (List UInt8)) : Option FileTree :=
  names.foldlM (fun t name => (t.child? name).map (·.2)) t

end FileTree

/-- A place in a file system: what is there, and on the way up the name of each tree and the
    directory that it is in. -/
structure Place where
  tree : FileTree
  above : List (EntryName × FileTree)

namespace Place

/-- The directory that a place is in. The root is in itself. -/
def parent (p : Place) : Place :=
  match p.above with
  | [] => p
  | (_, t) :: above => ⟨t, above⟩

/-- Follows names from a place. -/
def follow : Place → List (List UInt8) → Except ReadError Place
  | p, [] => .ok p
  | p, name :: names =>
    match p.tree with
    | .file _ => .error .notDirectory
    | .directory _ =>
      if name = Path.parentName then follow p.parent names
      else
        match p.tree.child? name with
        | none => .error .missing
        | some (name, t) => follow ⟨t, (name, p.tree) :: p.above⟩ names

end Place

/-- A file system: the directory at its root, and the names that lead from there to the working
    directory. -/
structure FileSystem where
  root : FileTree
  workingDirectory : List EntryName

namespace FileSystem

/-- Where a path begins. -/
def start (fs : FileSystem) (path : Path) : Except ReadError Place :=
  if path.isAbsolute then .ok ⟨fs.root, []⟩
  else Place.follow ⟨fs.root, []⟩ (fs.workingDirectory.map (·.bytes))

/-- The place that a path names. -/
def place (fs : FileSystem) (path : Path) : Except ReadError Place :=
  if path.bytes = [] then .error .missing
  else do
    let start ← fs.start path
    let found ← start.follow path.names
    match found.tree with
    | .file _ => if path.namesDirectory then throw .notDirectory else return found
    | .directory _ => return found

/-- The path names a file. -/
def isFileAt (fs : FileSystem) (path : Path) : Bool :=
  match fs.place path with
  | .ok ⟨.file _, _⟩ => true
  | _ => false

/-- The path names a directory. -/
def isDirectoryAt (fs : FileSystem) (path : Path) : Bool :=
  match fs.place path with
  | .ok ⟨.directory _, _⟩ => true
  | _ => false

/-- The text of a file, whose bytes must be UTF-8. -/
def readText (fs : FileSystem) (path : Path) : Except ReadError String := do
  match (← fs.place path).tree with
  | .directory _ => throw .isDirectory
  | .file content =>
    match String.fromUTF8? content with
    | some text => return text
    | none => throw .notText

end FileSystem

end SheetLint
