import SheetLint.Document

/-!
# Tables of TOML

Tables grow while a document is read. How a table came about decides what may still be added to it:
one with a header of its own is not defined again, and one that grows by keys with points grows in
no other way.
-/

namespace SheetLint.Toml

/-- How a table came about. -/
inductive Origin where
  | header
  | implied
  | dotted
  deriving DecidableEq, Repr

mutual

/-- What a key of a growing table stands for. -/
inductive Item where
  | value (document : Document)
  | table (table : Table)
  | tables (earlier : List Table) (last : Table)

/-- A growing table with its entries, the last first. -/
inductive Table where
  | mk (origin : Origin) (entries : List (String × Item))

end

namespace Table

/-- A table without entries. -/
def empty (origin : Origin) : Table := mk origin []

/-- How the table came about. -/
def origin : Table → Origin
  | mk origin _ => origin

/-- The entries, the last first. -/
def entries : Table → List (String × Item)
  | mk _ entries => entries

/-- What a key stands for. -/
def get? (t : Table) (key : String) : Option Item :=
  t.entries.lookup key

/-- The table with another meaning for a key. -/
def set (t : Table) (key : String) (item : Item) : Table :=
  mk t.origin ((key, item) :: t.entries.filter (·.1 != key))

/-- Changes the table at the end of a path. Tables that are missing on the way come about as
    `fresh` says, a list of tables stands for its last one, and `admits` says which tables the path
    may lead through. -/
def modify? (fresh : Origin) (admits : Origin → Bool) (change : Table → Option Table) :
    List String → Table → Option Table
  | [], t => change t
  | key :: path, t =>
    match t.get? key with
    | none => do
      let inner ← modify? fresh admits change path (empty fresh)
      return t.set key (.table inner)
    | some (.value _) => none
    | some (.table inner) =>
      if admits inner.origin then do
        let inner ← modify? fresh admits change path inner
        return t.set key (.table inner)
      else none
    | some (.tables earlier last) => do
      let last ← modify? fresh admits change path last
      return t.set key (.tables earlier last)

/-- Adds a value under a key with points. The path leads through tables without headers of their
    own and ends in one that grows in this way. -/
def insert? (t : Table) (path : List String) (key : String) (value : Document) : Option Table :=
  let add (inner : Table) : Option Table :=
    if (path.isEmpty || inner.origin == .dotted) && (inner.get? key).isNone then
      some (inner.set key (.value value))
    else none
  modify? .dotted (· != .header) add path t

/-- Adds a table with a header. A table that was only implied so far gets its header now. -/
def addTable? (t : Table) (path : List String) (key : String) : Option Table :=
  let add (parent : Table) : Option Table :=
    match parent.get? key with
    | none => some (parent.set key (.table (empty .header)))
    | some (.table (mk .implied entries)) => some (parent.set key (.table (mk .header entries)))
    | some _ => none
  modify? .implied (fun _ => true) add path t

/-- Adds a table to a list of tables. -/
def addToTables? (t : Table) (path : List String) (key : String) : Option Table :=
  let add (parent : Table) : Option Table :=
    match parent.get? key with
    | none => some (parent.set key (.tables [] (empty .header)))
    | some (.tables earlier last) =>
      some (parent.set key (.tables (earlier ++ [last]) (empty .header)))
    | some _ => none
  modify? .implied (fun _ => true) add path t

mutual

/-- The finished table. -/
def toDocument : Table → Document
  | mk _ entries => .table (toEntries entries).reverse

/-- The finished entries. -/
def toEntries : List (String × Item) → List (String × Document)
  | [] => []
  | (key, item) :: rest => (key, itemDocument item) :: toEntries rest

/-- The finished meaning of a key. -/
def itemDocument : Item → Document
  | .value document => document
  | .table t => toDocument t
  | .tables earlier last => .list (toDocuments earlier ++ [toDocument last])

/-- The finished tables of a list. -/
def toDocuments : List Table → List Document
  | [] => []
  | t :: ts => toDocument t :: toDocuments ts

end

end Table

end SheetLint.Toml
