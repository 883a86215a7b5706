import SheetLint.IgnoreFile

/-!
# Discovery

Which files a run looks at. A file that is named directly is taken unless it is excluded; a
directory stands for the files below it that are not ignored, not excluded and have one of the
wanted extensions.
-/

namespace SheetLint

/-- Why the files of a run cannot be found. -/
inductive DiscoveryError where
  | invalidGlob (pattern : String) (fault : Glob.Fault)
  | notFound (path : Path)
  deriving DecidableEq, Repr

/-- The reason in words. -/
def DiscoveryError.message : DiscoveryError → String
  | invalidGlob pattern fault =>
    "Invalid glob pattern '" ++ pattern ++ "': " ++ Glob.faultMessage pattern fault
  | notFound path => "No such file or directory: " ++ path.display

/-- Why a file is left out. -/
inductive SkipReason where
  | excluded
  | extension
  deriving DecidableEq, Repr

/-- A file that was found: to be checked, or left out. -/
inductive Found where
  | file (path : Path)
  | skipped (path : Path) (reason : SkipReason)
  deriving DecidableEq, Repr

namespace Found

/-- The path of the file, if it is to be checked. -/
def file? : Found → Option Path
  | file path => some path
  | skipped .. => none

end Found

/-- What decides on the files of a run: extensions in lower case, and globs of files to leave
    out. -/
structure Finder where
  extensions : List (List Char)
  excluded : List Glob

namespace Finder

/-- The files of a repository's own directory are never looked at. -/
def repositoryPattern : String := "**/.git/**"

/-- Reads a pattern of files to leave out. -/
def glob (pattern : String) : Except DiscoveryError Glob :=
  match Glob.parse pattern with
  | .ok g => .ok g
  | .error fault => .error (.invalidGlob pattern fault)

/-- A finder for extensions and patterns. Letters of extensions count without case. -/
def make (extensions exclude : List String) : Except DiscoveryError Finder := do
  let globs ← (exclude ++ [repositoryPattern]).mapM glob
  return ⟨extensions.map fun e => e.toList.map Char.toLower, globs⟩

/-- A pattern describes the file. -/
def isExcluded (f : Finder) (path : Path) : Bool :=
  f.excluded.any (·.describes path.withoutLeadingPoint)

/-- The name of the file is a text and properly extends one of the extensions at its front. -/
def hasExtension (f : Finder) (path : Path) : Bool :=
  match path.fileName?.bind Utf8.decode? with
  | none => false
  | some name =>
    let name := name.toList.map Char.toLower
    f.extensions.any fun e => e.length < name.length && e.isSuffixOf name

/-- What becomes of a file. The extension matters only for files that are not named directly. -/
def classify (f : Finder) (named : Bool) (path : Path) : Found :=
  if f.isExcluded path then .skipped path .excluded
  else if !named && !f.hasExtension path then .skipped path .extension
  else .file path

mutual

/-- The files below an entry of a directory, by the names that lead to them from there. Ignored
    entries are passed over with all below them. -/
def filesAt (scopes : List IgnoreScope) (name : EntryName) : FileTree → List (List EntryName)
  | .file _ => if IgnoreScope.isIgnored scopes name false then [] else [[name]]
  | .directory entries =>
    if IgnoreScope.isIgnored scopes name true then []
    else
      (filesIn (IgnoreScope.enter scopes name (.directory entries)) entries).map (name :: ·)

/-- The files below some entries of a directory. -/
def filesIn (scopes : List IgnoreScope) : List (EntryName × FileTree) → List (List EntryName)
  | [] => []
  | (name, t) :: entries => filesAt scopes name t ++ filesIn scopes entries

end

/-- Names are in order when those in front are; the first difference decides. -/
def inOrder (xs ys : List EntryName) : Bool :=
  !decide (ys.map (·.bytes) < xs.map (·.bytes))

/-- The files below a directory, in the order of the names that lead to them. -/
def listing (p : Place) : List (List EntryName) :=
  (filesIn (IgnoreScope.ofPlace p) p.tree.entries).mergeSort inOrder

/-- What a path stands for: itself if it names a file, and the files below it if it names a
    directory. -/
def expandPath (f : Finder) (fs : FileSystem) (path : Path) :
    Except DiscoveryError (List Found) :=
  match fs.place path with
  | .ok ⟨.file _, _⟩ => .ok [f.classify true path]
  | .ok ⟨.directory entries, above⟩ =>
    .ok ((listing ⟨.directory entries, above⟩).map fun names =>
      f.classify false (names.foldl Path.join path))
  | .error _ => .error (.notFound path)

/-- All that some paths stand for, in order. The first path that names nothing is an error. -/
def expand (f : Finder) (fs : FileSystem) (paths : List Path) :
    Except DiscoveryError (List Found) := do
  let parts ← paths.mapM (f.expandPath fs)
  return parts.flatten

/-- The files to check among those that some paths stand for. -/
def filesToCheck (f : Finder) (fs : FileSystem) (paths : List Path) :
    Except DiscoveryError (List Path) := do
  let found ← f.expand fs paths
  return found.filterMap Found.file?

end Finder

end SheetLint
