import LayeredConfig.Toml.Value

set_option autoImplicit false

/-!
# Assembling tables

A table knows how it came to be: by a header or as the document, on the way to a header below it,
or through a dotted key. Each may be added to only in some ways, so that no table is defined twice.
Inline tables and arrays in brackets are finished values. Entries stand in the order in which they
came to be; a table that gets its header later moves to the end.
-/
namespace LayeredConfig.Toml

inductive Origin where
  | defined
  | implied
  | dotted
deriving DecidableEq, Repr

inductive Item where
  | value (v : Value)
  | table (origin : Origin) (entries : List (String × Item))
  | tables (elements : List (List (String × Item)))
deriving Inhabited

abbrev Entries : Type := List (String × Item)

namespace Entries

/-- The new item takes the place of the old one, or goes to the end. -/
def put (key : String) (item : Item) : Entries → Entries
  | [] => [(key, item)]
  | (k, old) :: rest => if k = key then (key, item) :: rest else (k, old) :: put key item rest

def putLast (key : String) (item : Item) (entries : Entries) : Entries :=
  entries.filter (·.1 != key) ++ [(key, item)]

end Entries

/-- A table under change: its origin and its entries. -/
structure Table where
  origin : Origin
  entries : Entries

namespace Table

def empty : Table := ⟨.defined, []⟩

/-- Adds a value under a key that is still free. A dotted key must end in a table that dotted keys
made, a plain one in a table that they did not make. -/
def add (dotted : Bool) (key : String) (value : Value) (table : Table) : Option Table :=
  if decide (table.origin = .dotted) != dotted then none
  else
    match table.entries.lookup key with
    | some _ => none
    | none => some ⟨table.origin, table.entries.put key (.value value)⟩

/-- Changes the table that the keys lead to, making tables on the way. An array of tables is entered
at its last element. Dotted keys go through no table that has a header. -/
def change (dotted : Bool) (f : Table → Option Table) : List String → Table → Option Table
  | [], table => f table
  | key :: rest, table =>
    let put (item : Item) : Table := ⟨table.origin, table.entries.put key item⟩
    match table.entries.lookup key with
    | none =>
      let fresh : Table := ⟨if dotted then .dotted else .implied, []⟩
      (change dotted f rest fresh).map fun t => put (.table t.origin t.entries)
    | some (.value _) => none
    | some (.table origin entries) =>
      if dotted ∧ origin = .defined then none
      else
        (change dotted f rest ⟨origin, entries⟩).map fun t => put (.table t.origin t.entries)
    | some (.tables elements) =>
      match elements.getLast? with
      | none => none
      | some last =>
        (change dotted f rest ⟨.defined, last⟩).map fun t =>
          put (.tables (elements.dropLast ++ [t.entries]))

/-- Opens a table under a header: a new one, or one that so far was only implied. -/
def define (key : String) (table : Table) : Option Table :=
  match table.entries.lookup key with
  | none => some ⟨table.origin, table.entries.put key (.table .defined [])⟩
  | some (.table .implied entries) =>
    some ⟨table.origin, table.entries.putLast key (.table .defined entries)⟩
  | some _ => none

/-- Adds an empty element to an array of tables. -/
def append (key : String) (table : Table) : Option Table :=
  match table.entries.lookup key with
  | none => some ⟨table.origin, table.entries.put key (.tables [[]])⟩
  | some (.tables elements) =>
    some ⟨table.origin, table.entries.put key (.tables (elements ++ [[]]))⟩
  | some _ => none

/-- Adds a value under dotted keys, seen from the table at `path`. -/
def assign (path keys : List String) (value : Value) (table : Table) : Option Table :=
  match keys.getLast? with
  | none => none
  | some key =>
    let parents := keys.dropLast
    change false (change true (add (!parents.isEmpty) key value) parents) path table

end Table

mutual

def Item.toValue : Item → Value
  | .value v => v
  | .table _ entries => .table (toValues entries)
  | .tables elements => .array (toTables elements)

def toValues : List (String × Item) → List (String × Value)
  | [] => []
  | (key, item) :: rest => (key, item.toValue) :: toValues rest

def toTables : List (List (String × Item)) → List Value
  | [] => []
  | entries :: rest => .table (toValues entries) :: toTables rest

end

end LayeredConfig.Toml
