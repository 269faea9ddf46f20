import WideColumn.Schema
import WideColumn.Store.Client

/-!
# Requests for new tables

A request collects the name, the families and the declared columns of a table
and makes the table when it is carried out. Until then everything may be set
again: a column that is declared again moves to the end with its new type, and
what is missing is only noticed on carrying out. A request is carried out once.
-/

namespace WideColumn

/-- A request for a new table. -/
structure TableRequest where
  /-- The name of the table, if one was given. -/
  tableName : Option String
  /-- The families, if they were given. -/
  families : Option NameSet
  /-- The declared columns, in order. -/
  columns : List Column
  /-- The table has been made. -/
  executed : Bool
  deriving DecidableEq

namespace TableRequest

/-- The set of the families that a caller gives; a single name is refused. -/
def familySet : FamilyArgument → Except Error (Option NameSet)
  | .missing => .ok none
  | .names l => .ok (some (NameSet.ofList l))
  | .single given => .error (.familiesNotCollection given)

/-- An open request without columns. -/
def new (tableName : Option String) (families : FamilyArgument) : Except Error TableRequest :=
  (familySet families).map fun fs => ⟨tableName, fs, [], false⟩

/-- Set the families again. -/
def setFamilies (r : TableRequest) (families : FamilyArgument) : Except Error TableRequest :=
  (familySet families).map fun fs => { r with families := fs }

/-- Declare a column at the end, in place of any column of that name. -/
def declare (r : TableRequest) (c : Column) : TableRequest :=
  { r with columns := r.columns.filter (fun d => d.name ≠ c.name) ++ [c] }

/-- Declare the column that a name stands for. -/
def withColumn (r : TableRequest) (name : String) (dataType : Option DataType) :
    Except Error TableRequest :=
  (Column.parse name dataType).map r.declare

/-- The column belongs to one of the families, or to none. -/
def belongs (families : NameSet) (c : Column) : Bool :=
  match c.family with
  | none => true
  | some f => decide (f ∈ families)

/-- The families of a request that can be carried out: there are some, and every declared column
belongs to one of them. -/
def validFamilies (r : TableRequest) : Except Error NameSet :=
  match r.families with
  | none => .error .familiesMissing
  | some fs =>
    if fs.isEmpty then .error .familiesMissing
    else
      match r.columns.find? fun c => !belongs fs c with
      | some c => .error (.unknownFamily c.name r.tableName)
      | none => .ok fs

/-- The columns of the finished table: an identifier unless one is declared, the declared columns,
and a whole family for every family without a declared column. -/
def finishedColumns (columns : List Column) (families : NameSet) : List Column :=
  let id := if columns.any Column.isIdentifier then [] else [Column.identifier .binary]
  let rest := families.diff (Column.familiesOf columns)
  id ++ columns ++ rest.names.map fun f => Column.wholeFamily f .map

/-- The finished table. -/
def table (r : TableRequest) (schemaName tableName : String) (families : NameSet) : Table :=
  ⟨schemaName, tableName, finishedColumns r.columns families, families⟩

/-- Make the table in the store and give it. -/
def create (r : TableRequest) (schemaName : String) : Operation Client Table := do
  if r.executed then Operation.fail (.alreadyExecuted r.tableName)
  let families ← Operation.lift r.validFamilies
  Client.createTable r.tableName (.names families.names)
  return r.table schemaName (r.tableName.getD "") families

/-- Carry out a request: make the table in the store and add it to the schema. Gives the table, the
schema with it, and the request as carried out. -/
def execute (r : TableRequest) (s : LiveSchema) :
    Operation Client (Table × LiveSchema × TableRequest) := do
  let table ← r.create s.name
  let schema := s.addTable table
  Client.note .info ("Added " ++ table.name ++ " to " ++ schema.display ++ ".")
  return (table, schema, { r with executed := true })

/-- The state of a request in a word. -/
def stateName (r : TableRequest) : String := if r.executed then "executed" else "open"

/-- How a request is shown. -/
def display (r : TableRequest) : String :=
  let name := match r.tableName with
    | none => Value.null.literal
    | some s => Text.quoteText s
  "CreateTableBuilder(table_name=" ++ name ++ ", state=" ++ Text.quoteText r.stateName ++ ")"

end TableRequest

end WideColumn
