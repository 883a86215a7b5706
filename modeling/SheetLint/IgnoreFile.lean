import SheetLint.FileTree
import SheetLint.Glob
import SheetLint.Text.Blank

/-!
# Ignore files

Files in a directory that say which entries below it are passed over. Every line is a glob; the
last line that describes an entry decides, and a line can also take an entry back in. Lines of the
nearest directory count before those of the directories above.
-/

namespace SheetLint

/-- A line of an ignore file. -/
structure IgnoreRule where
  glob : Glob
  takesBack : Bool
  onlyDirectories : Bool

namespace IgnoreRule

/-- Removes the mark of a line that takes entries back in, or the backslash that hides such a mark,
    and then a separator at the front. Says whether the line takes back and whether it had the
    separator, which ties it to its directory. -/
def stripMarks : List Char → Bool × Bool × List Char
  | '\\' :: '!' :: rest => (false, false, '!' :: rest)
  | '\\' :: '#' :: rest => (false, false, '#' :: rest)
  | '!' :: '/' :: rest => (true, true, rest)
  | '!' :: rest => (true, false, rest)
  | '/' :: rest => (false, true, rest)
  | line => (false, false, line)

/-- Removes a separator at the end, which makes a line speak of directories only. A backslash in
    front of the separator goes with it. -/
def stripEnd (line : List Char) : Bool × List Char :=
  match line.reverse with
  | '/' :: '\\' :: rest => (true, rest.reverse)
  | '/' :: rest => (true, rest.reverse)
  | _ => (false, line)

/-- The text of the glob of a line. A line without separators speaks of entries at any depth, and
    one that ends in a double star of all that is below a directory. -/
def globText (tied : Bool) (line : List Char) : List Char :=
  let deep :=
    if tied || line.contains '/' || line == ['*', '*'] then line else ['*', '*', '/'] ++ line
  if ['/', '*', '*'].isSuffixOf deep then deep ++ ['/', '*'] else deep

/-- The line without blanks at its end, unless the last of them is behind a backslash. -/
def trimLine (line : List Char) : List Char :=
  if ['\\', ' '].isSuffixOf line then line else Text.trimEnd line

/-- Reads a line. Empty lines, comments and lines that are no globs say nothing. -/
def ofLine? (line : List Char) : Option IgnoreRule :=
  if line.head? = some '#' then none
  else
    let line := trimLine line
    if line.isEmpty then none
    else
      let (takesBack, tied, rest) := stripMarks line
      let (onlyDirectories, body) := stripEnd rest
      match Glob.parseSeparated (String.ofList (globText tied body)) with
      | .ok glob => some ⟨glob, takesBack, onlyDirectories⟩
      | .error _ => none

/-- The line describes an entry, given by its path from the directory of the file. -/
def applies (r : IgnoreRule) (path : Path) (isDirectory : Bool) : Bool :=
  (!r.onlyDirectories || isDirectory) && r.glob.describes path

/-- What some lines say about an entry: to pass it over, to take it back in, or nothing. -/
def judge? (rules : List IgnoreRule) (path : Path) (isDirectory : Bool) : Option Bool :=
  (rules.reverse.find? (·.applies path isDirectory)).map (!·.takesBack)

end IgnoreRule

namespace IgnoreFile

/-- The lines of a file without their ends. What follows the last line feed is a line if it is not
    empty. -/
def lines (current : List UInt8) : List UInt8 → List (List UInt8)
  | [] => if current.isEmpty then [] else [current.reverse]
  | b :: bs =>
    if b = 0x0A then
      (match current with
        | 0x0D :: rest => rest.reverse
        | _ => current.reverse) :: lines [] bs
    else lines (b :: current) bs

/-- The texts of lines up to the first that is not UTF-8. -/
def texts : List (List UInt8) → List String
  | [] => []
  | line :: rest =>
    match Utf8.decode? line with
    | some text => text :: texts rest
    | none => []

/-- The text without byte-order marks at its front. -/
def withoutMarks (text : String) : List Char :=
  text.toList.dropWhile (· == '\ufeff')

/-- The rules in a file. -/
def rules (content : ByteArray) : List IgnoreRule :=
  match texts (lines [] content.toList) with
  | [] => []
  | first :: rest => (withoutMarks first :: rest.map String.toList).filterMap IgnoreRule.ofLine?

/-- The rules in the file that some names lead to, if there is one. -/
def rulesAt (t : FileTree) (names : List String) : List IgnoreRule :=
  match t.descend? (names.map Utf8.encode) with
  | some (.file content) => rules content
  | _ => []

end IgnoreFile

/-- What a directory says about the entries below it, and the way down from it to the directory
    that is being looked at. -/
structure IgnoreScope where
  below : List EntryName
  general : List IgnoreRule
  tracked : List IgnoreRule
  excluded : List IgnoreRule
  isRepository : Bool

namespace IgnoreScope

/-- What a directory says, given the way down from it. -/
def ofDirectory (t : FileTree) (below : List EntryName) : IgnoreScope where
  below := below
  general := IgnoreFile.rulesAt t [".ignore"]
  tracked := IgnoreFile.rulesAt t [".gitignore"]
  excluded := IgnoreFile.rulesAt t [".git", "info", "exclude"]
  isRepository := (t.descend? [Utf8.encode ".git"]).isSome

/-- The scopes of the directories above a place, the nearest first, given the way down from that
    place. -/
def ofAbove (below : List EntryName) : List (EntryName × FileTree) → List IgnoreScope
  | [] => []
  | (name, t) :: above => ofDirectory t (name :: below) :: ofAbove (name :: below) above

/-- The scopes of a directory and of those above it. -/
def ofPlace (p : Place) : List IgnoreScope :=
  ofDirectory p.tree [] :: ofAbove [] p.above

/-- The path of an entry from the directory of a scope. -/
def pathOf (s : IgnoreScope) (name : EntryName) : Path :=
  ⟨[Path.separator].intercalate ((s.below ++ [name]).map (·.bytes))⟩

/-- The scopes up to the nearest repository. -/
def upToRepository : List IgnoreScope → List IgnoreScope
  | [] => []
  | s :: scopes => if s.isRepository then [s] else s :: upToRepository scopes

/-- An entry of the directory that is being looked at is passed over. General files count first,
    then those of a repository, if there is one. -/
def isIgnored (scopes : List IgnoreScope) (name : EntryName) (isDirectory : Bool) : Bool :=
  let judge (rules : IgnoreScope → List IgnoreRule) (s : IgnoreScope) : Option Bool :=
    IgnoreRule.judge? (rules s) (s.pathOf name) isDirectory
  let inRepository :=
    if scopes.any (·.isRepository) then upToRepository scopes else []
  let verdict :=
    scopes.findSome? (judge (·.general)) <|>
      inRepository.findSome? (judge (·.tracked)) <|>
      inRepository.findSome? (judge (·.excluded))
  verdict == some true

/-- The scopes seen from a directory below the one that is being looked at. -/
def enter (scopes : List IgnoreScope) (name : EntryName) (t : FileTree) : List IgnoreScope :=
  ofDirectory t [] :: scopes.map fun s => { s with below := s.below ++ [name] }

end IgnoreScope

end SheetLint
