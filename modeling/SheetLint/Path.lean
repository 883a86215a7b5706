import SheetLint.Text.Utf8

/-!
# Paths

A path is made of bytes, which need not be a text. It leads from directory to directory by the names
between its separators.
-/

namespace SheetLint

/-- A path of a file system. -/
structure Path where
  bytes : List UInt8
  deriving DecidableEq, Repr

namespace Path

/-- The separator of names. -/
def separator : UInt8 := 0x2F

/-- The point, which alone names the directory itself. -/
def point : UInt8 := 0x2E

/-- The path that is written as this text. -/
def ofString (text : String) : Path :=
  ⟨Utf8.encode text⟩

instance : Coe String Path := ⟨ofString⟩

/-- The path as a text, if it is one. -/
def text? (path : Path) : Option String :=
  Utf8.decode? path.bytes

/-- The path in words. -/
def display (path : Path) : String :=
  Utf8.display path.bytes

@[simp] theorem text?_ofString (text : String) : (ofString text).text? = some text :=
  Utf8.decode?_encode text

/-- A path that is a text is the path of that text. -/
theorem ofString_of_text? {path : Path} {text : String} (h : path.text? = some text) :
    ofString text = path := by
  rw [ofString, Utf8.encode_of_decode? h]

/-- The stretches between the separators. -/
def segments : List UInt8 → List (List UInt8)
  | [] => [[]]
  | b :: bs =>
    if b = separator then [] :: segments bs
    else
      match segments bs with
      | [] => [[b]]
      | first :: rest => (b :: first) :: rest

/-- The name that leads upwards. -/
def parentName : List UInt8 := [point, point]

/-- The names on a path. Empty stretches and single points name the directory they stand in. -/
def names (path : Path) : List (List UInt8) :=
  (segments path.bytes).filter fun name => name != [] && name != [point]

/-- The path ends in a separator or in a single point, so it can only name a directory. -/
def namesDirectory (path : Path) : Bool :=
  match (segments path.bytes).getLast? with
  | some last => last == [] || last == [point]
  | none => false

/-- The path begins at the root of the file system and not in the working directory. -/
def isAbsolute (path : Path) : Bool :=
  path.bytes.head? == some separator

/-- The last name on a path, unless it leads upwards. -/
def fileName? (path : Path) : Option (List UInt8) :=
  path.names.getLast?.filter (· != parentName)

/-- What stands behind the last point of a file name. A point at the front does not count. -/
def extension? (path : Path) : Option (List UInt8) := do
  let name ← path.fileName?
  let behind := name.reverse.takeWhile (· != point)
  if behind.length + 1 < name.length then some behind.reverse else none

/-- Drops separators and single points from the front. -/
def skipPoints : List UInt8 → List UInt8
  | 0x2F :: rest => skipPoints rest
  | 0x2E :: 0x2F :: rest => skipPoints rest
  | rest => rest

/-- The path without the points and separators at its front, if it begins with a single point. -/
def withoutLeadingPoint (path : Path) : Path :=
  match path.bytes with
  | 0x2E :: 0x2F :: rest => ⟨skipPoints rest⟩
  | _ => path

end Path

/-- The name of an entry of a directory: it is not empty, has no separator, and is neither the
    directory itself nor the one above. -/
@[ext]
structure EntryName where
  bytes : List UInt8
  isName : bytes ≠ [] ∧ bytes ≠ [Path.point] ∧ bytes ≠ Path.parentName ∧ Path.separator ∉ bytes
  deriving DecidableEq

namespace EntryName

/-- The name with these bytes, if they are one. -/
def ofBytes? (bytes : List UInt8) : Option EntryName :=
  if h : bytes ≠ [] ∧ bytes ≠ [Path.point] ∧ bytes ≠ Path.parentName ∧ Path.separator ∉ bytes then
    some ⟨bytes, h⟩
  else none

end EntryName

namespace Path

/-- An entry of the directory that the path names. -/
def join (path : Path) (name : EntryName) : Path :=
  if path.bytes.getLast? == some separator then ⟨path.bytes ++ name.bytes⟩
  else ⟨path.bytes ++ separator :: name.bytes⟩

/-- The names on a path that does not lead upwards. -/
def entryNames? (path : Path) : Option (List EntryName) :=
  path.names.mapM EntryName.ofBytes?

end Path

end SheetLint
