import SheetLint.Discovery
import SheetLint.Proofs.EntryNames
import SheetLint.Proofs.Traversal
import Mathlib.Data.List.Forall2

/-!
# Expansion of paths

What some paths stand for is said for each path alone, and the parts are joined in the order of the
paths (`Finder.StandsFor`). A path that names a directory stands for the files that are listed below
it, in the order of their paths; none is lost there, and none comes in. Whether a file is left out
is said by the patterns and extensions as they are given, without the finder that is made from them
(`Finder.Excludes`, `Finder.Extends`).
-/

namespace SheetLint

/-- The path of a file that was found. -/
def Found.path : Found → Path
  | file path => path
  | skipped path _ => path

namespace FileSystem

/-- The files that a walk lists below a directory, by the names that lead to them from there. -/
def listed (fs : FileSystem) (path : Path) : List (List EntryName) :=
  match fs.place path with
  | .ok p => Finder.filesIn (IgnoreScope.ofPlace p) p.tree.entries
  | .error _ => []

/-- The first of some paths that names neither a file nor a directory. -/
def firstMissing? (fs : FileSystem) (paths : List Path) : Option Path :=
  paths.find? fun path => !fs.isFileAt path && !fs.isDirectoryAt path

/-- A path names a file, a directory or nothing. -/
theorem place_cases (fs : FileSystem) (path : Path) :
    (fs.isFileAt path = true ∧ ∃ content above, fs.place path = .ok ⟨.file content, above⟩) ∨
    (fs.isFileAt path = false ∧ fs.isDirectoryAt path = true ∧
      ∃ entries above, fs.place path = .ok ⟨.directory entries, above⟩) ∨
    (fs.isFileAt path = false ∧ fs.isDirectoryAt path = false ∧ ∃ e, fs.place path = .error e) := by
  unfold isFileAt isDirectoryAt
  cases fs.place path with
  | error e => exact .inr (.inr ⟨rfl, rfl, e, rfl⟩)
  | ok p =>
    obtain ⟨tree, above⟩ := p
    cases tree with
    | file content => exact .inl ⟨rfl, content, above, rfl⟩
    | directory entries => exact .inr (.inl ⟨rfl, rfl, entries, above, rfl⟩)

end FileSystem

namespace Finder

variable {extensions exclude : List String} {f : Finder} {path : Path}

/-- The names in front do not matter where they are the same. -/
theorem append_lt_append_iff {front xs ys : List (List UInt8)} :
    front ++ xs < front ++ ys ↔ xs < ys := by
  induction front with
  | nil => rfl
  | cons name front ih =>
    rw [List.cons_append, List.cons_append, List.cons_lt_cons_iff, ih]
    exact or_iff_right (List.lt_irrefl name) |>.trans (and_iff_right rfl)

/-- There is only one way to sort by names. -/
theorem eq_of_sorted {xs ys : List (List EntryName)} (same : xs.Perm ys)
    (sorted : xs.Pairwise fun a b => ¬ b.map (·.bytes) < a.map (·.bytes))
    (sorted' : ys.Pairwise fun a b => ¬ b.map (·.bytes) < a.map (·.bytes)) : xs = ys := by
  refine List.Perm.eq_of_pairwise ?_ sorted sorted' same
  intro a b _ _ first second
  have bytes : a.map (·.bytes) = b.map (·.bytes) := List.le_antisymm first second
  exact List.map_injective_iff.mpr (fun _ _ => EntryName.ext) bytes

/-- A pattern describes the file, or the one for a repository's own directory does. -/
def Excludes (exclude : List String) (path : Path) : Prop :=
  ∃ pattern ∈ exclude ++ ["**/.git/**"], ∃ glob, Glob.parse pattern = .ok glob ∧
    glob.describes path.withoutLeadingPoint = true

/-- The name is a text that is one of the extensions with something in front, in any case. -/
def Extends (extensions : List String) (name : EntryName) : Prop :=
  ∃ text, Utf8.decode? name.bytes = some text ∧
    ∃ extension ∈ extensions, ∃ front, front ≠ "" ∧ text.toLower = front ++ extension.toLower

/-- What becomes of a file with this path and name that is listed below a directory. -/
structure Judges (extensions exclude : List String) (path : Path) (name : EntryName)
    (found : Found) : Prop where
  same : found.path = path
  excluded : found = .skipped path .excluded ↔ Excludes exclude path
  extension : found = .skipped path .extension ↔
    ¬ Excludes exclude path ∧ ¬ Extends extensions name
  file : found = .file path ↔ ¬ Excludes exclude path ∧ Extends extensions name

/-- What a path stands for: a file for itself, whatever its extension, and a directory for the files
    that are listed below it, in the order of their paths. -/
inductive StandsFor (extensions exclude : List String) (fs : FileSystem) (path : Path) :
    List Found → Prop
  | file (isFile : fs.isFileAt path = true) (wanted : ¬ Excludes exclude path) :
      StandsFor extensions exclude fs path [.file path]
  | excluded (isFile : fs.isFileAt path = true) (unwanted : Excludes exclude path) :
      StandsFor extensions exclude fs path [.skipped path .excluded]
  | directory {entries : List (List EntryName)} {found : List Found}
      (isDirectory : fs.isDirectoryAt path = true)
      (all : entries.Perm (fs.listed path))
      (judged : List.Forall₂ (fun entry found => ∃ name, entry.getLast? = some name ∧
        Judges extensions exclude (entry.foldl Path.join path) name found) entries found)
      (sorted : found.Pairwise fun a b => ¬ b.path.names < a.path.names) :
      StandsFor extensions exclude fs path found

theorem Judges.unique {name : EntryName} {a b : Found} (ha : Judges extensions exclude path name a)
    (hb : Judges extensions exclude path name b) : a = b := by
  by_cases yes : Excludes exclude path
  · rw [ha.excluded.mpr yes, hb.excluded.mpr yes]
  by_cases wanted : Extends extensions name
  · rw [ha.file.mpr ⟨yes, wanted⟩, hb.file.mpr ⟨yes, wanted⟩]
  · rw [ha.extension.mpr ⟨yes, wanted⟩, hb.extension.mpr ⟨yes, wanted⟩]

/-- Files that are sorted by their paths are sorted by the names that lead to them. -/
theorem sorted_entries {entries : List (List EntryName)} {found : List Found}
    (judged : List.Forall₂ (fun entry found => ∃ name, entry.getLast? = some name ∧
      Judges extensions exclude (entry.foldl Path.join path) name found) entries found)
    (sorted : found.Pairwise fun a b => ¬ b.path.names < a.path.names) :
    entries.Pairwise fun xs ys => ¬ ys.map (·.bytes) < xs.map (·.bytes) := by
  have paths : found.map (·.path.names) = entries.map (path.names ++ ·.map (·.bytes)) := by
    rw [← List.forall₂_eq_eq_eq, List.forall₂_map_left_iff, List.forall₂_map_right_iff]
    refine judged.flip.imp ?_
    rintro found entry ⟨_, -, here⟩
    rw [here.same, Path.names_foldl_join]
  have names : (found.map (·.path.names)).Pairwise fun a b => ¬ b < a := by
    rwa [List.pairwise_map]
  rw [paths, List.pairwise_map] at names
  simpa only [append_lt_append_iff] using names

/-- A path stands for one thing only. -/
theorem StandsFor.unique {fs : FileSystem} {xs ys : List Found}
    (hx : StandsFor extensions exclude fs path xs) (hy : StandsFor extensions exclude fs path ys) :
    xs = ys := by
  have apart : ¬ (fs.isFileAt path = true ∧ fs.isDirectoryAt path = true) := by
    rintro ⟨isFile, isDirectory⟩
    rcases fs.place_cases path with ⟨-, content, above, found⟩ | ⟨noFile, -⟩ | ⟨noFile, -⟩
    · rw [FileSystem.isDirectoryAt, found] at isDirectory
      cases isDirectory
    · rw [noFile] at isFile
      cases isFile
    · rw [noFile] at isFile
      cases isFile
  cases hx with
  | file isFile wanted =>
    cases hy with
    | file => rfl
    | excluded _ unwanted => exact absurd unwanted wanted
    | directory isDirectory => exact absurd ⟨isFile, isDirectory⟩ apart
  | excluded isFile unwanted =>
    cases hy with
    | file _ wanted => exact absurd unwanted wanted
    | excluded => rfl
    | directory isDirectory => exact absurd ⟨isFile, isDirectory⟩ apart
  | directory isDirectory all judged sorted =>
    cases hy with
    | file isFile => exact absurd ⟨isFile, isDirectory⟩ apart
    | excluded isFile => exact absurd ⟨isFile, isDirectory⟩ apart
    | directory _ all' judged' sorted' =>
      have same := eq_of_sorted (all.trans all'.symm) (sorted_entries judged sorted)
        (sorted_entries judged' sorted')
      subst same
      refine List.right_unique_forall₂' ?_ judged judged'
      rintro entry a b ⟨name, last, ha⟩ ⟨name', last', hb⟩
      cases last.symm.trans last'
      exact ha.unique hb

end Finder

end SheetLint
