/-!
# Documents

The values that configuration files and machine-readable reports are made of, whatever the notation
they are written in.
-/

namespace SheetLint

/-- A value of a document. Numbers and points in time are kept as they are written, and the entries
    of a table in the order in which they are written. -/
inductive Document where
  | null
  | bool (value : Bool)
  | number (literal : String)
  | string (text : String)
  | moment (literal : String)
  | list (items : List Document)
  | table (entries : List (String × Document))
  deriving Repr

namespace Document

/-- The text of a string. -/
def asString? : Document → Option String
  | string text => some text
  | _ => none

/-- The texts of a list of strings. -/
def asStrings? : Document → Option (List String)
  | list items => items.mapM asString?
  | _ => none

end Document

end SheetLint
