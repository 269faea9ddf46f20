import WideColumn.Collections.OrderedMap
import WideColumn.Table

/-!
# Schemas

A schema is a named collection of tables. A live schema gains and loses tables
and has one table of a name; a frozen schema is a fixed list of tables. Freezing
a live schema keeps its name, its tables and their order.
-/

namespace WideColumn

/-- A schema whose tables come and go. -/
structure LiveSchema where
  /-- The name of the schema. -/
  name : String
  /-- The tables under their names, in the order in which the names first came. -/
  byName : OrderedMap String Table
  deriving DecidableEq

/-- A schema whose tables stay as they are. -/
structure FrozenSchema where
  /-- The name of the schema. -/
  name : String
  /-- The tables, in order; a name may come more than once. -/
  tables : List Table
  deriving DecidableEq

/-- A schema of either kind. -/
inductive Schema where
  /-- A schema whose tables come and go. -/
  | live (s : LiveSchema)
  /-- A schema whose tables stay as they are. -/
  | frozen (s : FrozenSchema)
  deriving DecidableEq

namespace LiveSchema

/-- Bind a table under its own name: in place of a table of that name, else at the end. -/
def addTable (s : LiveSchema) (t : Table) : LiveSchema :=
  ⟨s.name, s.byName.insert t.name t⟩

/-- The schema that holds the given tables, added in turn. -/
def ofTables (name : String) (tables : List Table) : LiveSchema :=
  tables.foldl addTable ⟨name, ∅⟩

/-- The table names, in order. -/
def tableNames (s : LiveSchema) : List String := s.byName.keys

/-- The tables, in order. -/
def tables (s : LiveSchema) : List Table := s.byName.values

/-- The table of a name. -/
def getTable (s : LiveSchema) (name : String) : Option Table := s.byName.get? name

/-- Drop the table of a name, if there is one. -/
def removeTable (s : LiveSchema) (name : String) : LiveSchema := ⟨s.name, s.byName.erase name⟩

/-- How a live schema is shown. -/
def display (s : LiveSchema) : String :=
  "MutableSchema(name=" ++ Text.quoteText s.name ++ ")"

/-- Fix the tables as they are now. -/
def freeze (s : LiveSchema) : FrozenSchema := ⟨s.name, s.tables⟩

@[simp] theorem name_addTable (s : LiveSchema) (t : Table) : (s.addTable t).name = s.name := rfl

@[simp] theorem name_removeTable (s : LiveSchema) (n : String) :
    (s.removeTable n).name = s.name := rfl

/-- Adding a table binds its name and leaves all other names alone. -/
theorem getTable_addTable (s : LiveSchema) (t : Table) (n : String) :
    (s.addTable t).getTable n = if t.name = n then some t else s.getTable n :=
  OrderedMap.get?_insert s.byName t.name n t

/-- Removing a table unbinds its name and leaves all other names alone. -/
theorem getTable_removeTable (s : LiveSchema) (k n : String) :
    (s.removeTable k).getTable n = if k = n then none else s.getTable n :=
  OrderedMap.get?_erase s.byName k n

end LiveSchema

namespace FrozenSchema

/-- The table names, in order. -/
def tableNames (s : FrozenSchema) : List String := s.tables.map Table.name

/-- The first table of a name. -/
def getTable (s : FrozenSchema) (name : String) : Option Table :=
  s.tables.find? fun t => t.name = name

/-- How a frozen schema is shown. -/
def display (s : FrozenSchema) : String :=
  "ImmutableSchema(name=" ++ Text.quoteText s.name ++ ")"

end FrozenSchema

namespace Schema

/-- The name of the schema. -/
def name : Schema → String
  | live s => s.name
  | frozen s => s.name

/-- The table names, in order. -/
def tableNames : Schema → List String
  | live s => s.tableNames
  | frozen s => s.tableNames

/-- The tables, in order. -/
def tables : Schema → List Table
  | live s => s.tables
  | frozen s => s.tables

/-- The table found under a name. -/
def getTable : Schema → String → Option Table
  | live s, name => s.getTable name
  | frozen s, name => s.getTable name

/-- How a schema is shown. -/
def display : Schema → String
  | live s => s.display
  | frozen s => s.display

/-- The schema with its tables fixed as they are now. -/
def freeze : Schema → FrozenSchema
  | live s => s.freeze
  | frozen s => s

end Schema

end WideColumn
