import GridBridge.Config.Tree

/-!
# Config: TOML tables

A TOML document fills its tables in several places: under headers, and through dotted keys. Each
table remembers what made it, which decides where it may still be filled. A table is complete once a
header has named it; only tables below it may be added then. A table made by a dotted key is filled
by further dotted keys and never named by a header.
-/

namespace GridBridge.Config.Toml

/-- What made a table. -/
inductive Standing where
  /-- A header that names it. -/
  | named
  /-- A header that names a table below it. -/
  | implied
  /-- A dotted key. -/
  | dotted
  deriving DecidableEq, Repr

/-- What stands under a key. -/
inductive Entry where
  /-- A complete value. It is never added to. -/
  | value (tree : Tree)
  | table (standing : Standing) (entries : List (String × Entry))
  /-- Tables that repeated headers add, newest first. -/
  | series (tables : List (List (String × Entry)))

/-- The entries of a table under construction. -/
abbrev Table := List (String × Entry)

mutual

/-- What an entry says. -/
def Entry.tree : Entry → Tree
  | .value tree => tree
  | .table _ entries => .record (Table.trees entries)
  | .series tables => .list (Table.records tables).reverse

/-- What the entries of a table say. -/
def Table.trees : List (String × Entry) → List (String × Tree)
  | [] => []
  | (key, entry) :: rest => (key, entry.tree) :: Table.trees rest

/-- What each of some tables says. -/
def Table.records : List (List (String × Entry)) → List Tree
  | [] => []
  | table :: rest => .record (Table.trees table) :: Table.records rest

end

/-- A key of one or more names, and the value given to it. -/
structure Assignment where
  path : List String
  key : String
  value : Tree
  deriving Repr

/-- A header with the assignments below it. -/
structure Section where
  path : List String
  key : String
  /-- The header adds one more table to a series. -/
  repeated : Bool
  body : List Assignment
  deriving Repr

namespace Table

/-- Sets what stands under a key that is there. -/
def replace (table : Table) (key : String) (entry : Entry) : Table :=
  table.map fun (k, old) => if k = key then (k, entry) else (k, old)

/-- Adds a new key. -/
def add (table : Table) (key : String) (entry : Entry) : Table := table ++ [(key, entry)]

/-- Gives a value to a dotted key. Tables on the way are made if missing; one that a header implied
may be passed, but not filled. -/
def assign (key : String) (value : Tree) : List String → Table → Option Table
  | [], table =>
    match table.lookup key with
    | none => some (table.add key (.value value))
    | some _ => none
  | name :: path, table =>
    match table.lookup name with
    | none => do return table.add name (.table .dotted (← assign key value path []))
    | some (.table .dotted inner) => do
      return table.replace name (.table .dotted (← assign key value path inner))
    | some (.table .implied inner) =>
      if path.isEmpty then none
      else do return table.replace name (.table .implied (← assign key value path inner))
    | some (.series (newest :: older)) =>
      if path.isEmpty then none
      else do return table.replace name (.series ((← assign key value path newest) :: older))
    | some _ => none

/-- Gives values to keys, one after the other. -/
def assignAll (table : Table) (assignments : List Assignment) : Option Table :=
  assignments.foldlM (fun t a => t.assign a.key a.value a.path) table

/-- Changes the table a header's path leads to. Tables on the way are implied if missing; of a
series the newest table counts. -/
def descend (change : Table → Option Table) : List String → Table → Option Table
  | [], table => change table
  | name :: path, table =>
    match table.lookup name with
    | none => do return table.add name (.table .implied (← descend change path []))
    | some (.table standing inner) => do
      return table.replace name (.table standing (← descend change path inner))
    | some (.series (newest :: older)) => do
      return table.replace name (.series ((← descend change path newest) :: older))
    | some _ => none

/-- Fills the table that a header names: a new one, or one that was only implied so far. -/
def fill (key : String) (body : List Assignment) (table : Table) : Option Table :=
  match table.lookup key with
  | none => do return table.add key (.table .named (← assignAll [] body))
  | some (.table .implied inner) => do
    return table.replace key (.table .named (← assignAll inner body))
  | some _ => none

/-- Adds a table to the series that a header names. -/
def push (key : String) (body : List Assignment) (table : Table) : Option Table :=
  match table.lookup key with
  | none => do return table.add key (.series [← assignAll [] body])
  | some (.series tables) => do
    return table.replace key (.series ((← assignAll [] body) :: tables))
  | some _ => none

/-- Takes a section in. -/
def take (s : Section) (table : Table) : Option Table :=
  table.descend (if s.repeated then push s.key s.body else fill s.key s.body) s.path

/-- The table of a document: assignments in front of any header, and sections. -/
def ofSections? (root : List Assignment) (sections : List Section) : Option Table := do
  sections.foldlM (fun t s => t.take s) (← assignAll [] root)

end Table

end GridBridge.Config.Toml
