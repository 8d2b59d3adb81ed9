import GoUml.Toml.Basic

/-!
# TOML documents

A document is a row of statements: headers that open a table, and keys with values that go into the
table opened last. No statement may write to a place that another one has settled: a table is opened
by one header, keys with dots reach only into tables that such keys have made, and an inline table
is closed.
-/

namespace GoUml.Toml

/-- How a table came to be. -/
inductive Origin where
  /-- A header opened it. -/
  | header
  /-- It lies on the way to a table that a header opened. -/
  | passing
  /-- It lies on the way of a key with dots. -/
  | dotted
  deriving DecidableEq

/-- What stands at a key while a document is put together. -/
inductive Entry where
  | value (value : Toml)
  | table (origin : Origin) (entries : List (String × Entry))
  /-- The tables that headers in double brackets have opened, the last one first. -/
  | tables (items : List (List (String × Entry)))

abbrev Entries := List (String × Entry)

inductive Statement where
  | assign (path : List String) (key : String) (value : Toml)
  | header (path : List String) (key : String)
  | item (path : List String) (key : String)

namespace Entries

def find? (key : String) (entries : Entries) : Option Entry :=
  (List.find? (fun e : String × Entry => e.1 == key) entries).map (·.2)

/-- Puts an entry at a key, over what is there. -/
def put (key : String) (entry : Entry) : Entries → Entries
  | [] => [(key, entry)]
  | (k, old) :: rest => if k == key then (key, entry) :: rest else (k, old) :: put key entry rest

/-- Changes the table at the end of a path, making the tables that lead there. A table that a header
opened is closed to keys with dots. -/
def within (making : Origin) (f : Origin → Entries → Option Entries) :
    List String → Origin → Entries → Option Entries
  | [], origin, entries => f origin entries
  | key :: rest, _, entries =>
    match entries.find? key with
    | none =>
      (within making f rest making []).map fun inner => entries.put key (.table making inner)
    | some (.value _) => none
    | some (.table origin inner) =>
      if making = .dotted && origin = .header then none
      else
        (within making f rest origin inner).map fun inner => entries.put key (.table origin inner)
    | some (.tables (last :: before)) =>
      (within making f rest .header last).map fun last => entries.put key (.tables (last :: before))
    | some (.tables []) => none

/-- Writes a value to a key that is free. A key with dots writes only to a table that such keys have
made. -/
def assign (path : List String) (key : String) (value : Toml) : Origin → Entries → Option Entries :=
  within .dotted (fun origin entries =>
    if (origin == .dotted) == path.isEmpty then none
    else if (entries.find? key).isSome then none
    else some (entries.put key (.value value))) path

/-- Opens a table that no header has opened before. -/
def openTable (key : String) (entries : Entries) : Option Entries :=
  match entries.find? key with
  | none => some (entries.put key (.table .header []))
  | some (.table .passing inner) => some (entries.put key (.table .header inner))
  | _ => none

/-- Opens one more table in a list of tables. -/
def openItem (key : String) (entries : Entries) : Option Entries :=
  match entries.find? key with
  | none => some (entries.put key (.tables [[]]))
  | some (.tables items) => some (entries.put key (.tables ([] :: items)))
  | _ => none

end Entries

/-- A document so far and the path of the table opened last. -/
structure Draft where
  entries : Entries
  current : List String

def Draft.add (draft : Draft) : Statement → Option Draft
  | .assign path key value =>
    (Entries.within .passing (Entries.assign path key value) draft.current .header
      draft.entries).map ({ draft with entries := · })
  | .header path key =>
    (Entries.within .passing (fun _ => Entries.openTable key) path .header draft.entries).map
      (⟨·, path ++ [key]⟩)
  | .item path key =>
    (Entries.within .passing (fun _ => Entries.openItem key) path .header draft.entries).map
      (⟨·, path ++ [key]⟩)

mutual

def Entry.toml : Entry → Toml
  | .value v => v
  | .table _ entries => .table (entriesToml entries)
  | .tables items => .array (itemsToml items).reverse

def entriesToml : List (String × Entry) → List (String × Toml)
  | [] => []
  | (key, entry) :: rest => (key, entry.toml) :: entriesToml rest

def itemsToml : List (List (String × Entry)) → List Toml
  | [] => []
  | entries :: rest => .table (entriesToml entries) :: itemsToml rest

end

/-- The table that the statements of a document write. -/
def ofStatements? (statements : List Statement) : Option (List (String × Toml)) :=
  (statements.foldlM Draft.add ⟨[], []⟩).map fun draft => entriesToml draft.entries

/-- The table that keys and values in braces write. -/
def inlineTable? (assignments : List (List String × String × Toml)) : Option Toml :=
  let add (entries : Entries) : List String × String × Toml → Option Entries
    | (path, key, value) => entries.assign path key value .header
  (assignments.foldlM add []).map fun entries => .table (entriesToml entries)

end GoUml.Toml
