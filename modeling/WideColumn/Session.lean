import WideColumn.Row.Draft
import WideColumn.Store.Update
import WideColumn.TableRequest

/-!
# Sessions

A session is one client with everything that was made while working with it:
tables, schemas, requests, row drafts and rows, each kept under a name. Live
schemas are shared, since a request changes the very schema it was made for; all
else is kept by value. A command that fails keeps nothing under a new name.
-/

namespace WideColumn

/-- A column as a caller gives it: by name, or as it is. -/
inductive ColumnArgument where
  /-- The name of the column. -/
  | named (name : String)
  /-- The column itself. -/
  | given (c : Column)

/-- The column that a caller means. -/
def ColumnArgument.column : ColumnArgument → Except Error Column
  | named name => Column.parse name none
  | given c => .ok c

/-- The columns that a caller means; the first bad name is refused. -/
def ColumnArgument.columns : List ColumnArgument → Except Error (List Column)
  | [] => .ok []
  | a :: rest => do
    let c ← a.column
    let cs ← columns rest
    return c :: cs

/-- Columns with values, where the first bad name is refused. -/
def ColumnArgument.pairs : List (ColumnArgument × Value) → Except Error (List (Column × Value))
  | [] => .ok []
  | (a, v) :: rest => do
    let c ← a.column
    let cs ← pairs rest
    return (c, v) :: cs

/-- What is kept under a name. -/
inductive Entity where
  /-- A table. -/
  | table (t : Table)
  /-- A live schema, by its place among the session's schemas. -/
  | live (place : Nat)
  /-- A frozen schema. -/
  | frozen (s : FrozenSchema)
  /-- A request for a table of the schema at a place. -/
  | request (r : TableRequest) (place : Nat)
  /-- A row draft. -/
  | draft (d : RowDraft)
  /-- A row. -/
  | row (r : Row)

/-- A client and what was made while working with it. -/
structure Session where
  /-- The client. -/
  client : Client
  /-- The live schemas, in the order in which they were made. -/
  schemas : List LiveSchema
  /-- What is kept under which name. -/
  kept : OrderedMap String Entity

/-- A command to the client. -/
inductive ClientCommand where
  /-- Make a table. -/
  | createTable (table : Option String) (families : FamilyArgument)
  /-- Drop a table. -/
  | dropTable (table : String)
  /-- Ask whether a table exists. -/
  | tableExists (table : String)
  /-- Ask for the families of a table. -/
  | tableFamilies (table : String)
  /-- Ask for a row. -/
  | getRow (table key : String)
  /-- Drop a row. -/
  | deleteRow (table key : String)
  /-- Ask what the client can do. -/
  | abilities

/-- A command to the store itself, past the client. -/
inductive StoreCommand where
  /-- Make a table. -/
  | createTable (table : String) (families : List String)
  /-- Drop a table. -/
  | deleteTable (table : String)
  /-- Ask whether a table exists. -/
  | tableExists (table : String)
  /-- Ask for the families of a table. -/
  | tableFamilies (table : String)
  /-- Lay cells on top of a row. -/
  | put (table key : String) (cells : Cells)
  /-- Ask for a row. -/
  | get (table key : String)
  /-- Drop a row. -/
  | delete (table key : String)
  /-- Close the store. -/
  | close
  /-- Show a memory store. -/
  | inspect
  /-- Merge bytes into a row of the server, unseen by its record of calls. -/
  | mergeRow (table : String) (row : Bytes) (cells : List (Bytes × Bytes))

/-- A command of a session. Commands that make something may name it. -/
inductive Command where
  /-- Make a table of values of any kind. -/
  | makeTable (keep : Option String) (schemaName name : Value) (columns : List ColumnArgument)
      (families : List String)
  /-- Look up a column of a table by name. -/
  | getColumn (table name : String)
  /-- Ask whether a table takes values for a column. -/
  | hasColumn (table : String) (column : ColumnArgument)
  /-- Make a live schema of tables. -/
  | liveSchema (keep : Option String) (name : String) (tables : List String)
  /-- Make a frozen schema of tables. -/
  | frozenSchema (keep : Option String) (name : String) (tables : List String)
  /-- Freeze a schema. -/
  | freeze (keep : Option String) (schema : String)
  /-- Show a schema. -/
  | showSchema (schema : String)
  /-- Look up a table of a schema by name. -/
  | getTable (keep : Option String) (schema table : String)
  /-- Add a table to a schema. -/
  | addTable (schema table : String)
  /-- Remove a table from a schema. -/
  | removeTable (schema table : String)
  /-- Request a table. -/
  | request (keep : Option String) (schema : String) (table : Option String)
      (families : FamilyArgument)
  /-- Set the families of a request. -/
  | setFamilies (request : String) (families : FamilyArgument)
  /-- Declare a column of a request. -/
  | withColumn (request name : String) (dataType : Option DataType)
  /-- Show a request. -/
  | showRequest (request : String)
  /-- Carry out a request. -/
  | execute (keep : Option String) (request : String)
  /-- Start a row. -/
  | draft (keep : Option String) (table : String)
  /-- Give the identifier of a row. -/
  | stageId (draft : String) (v : Value)
  /-- Give the value of a column of a row. -/
  | stage (draft : String) (column : ColumnArgument) (v : Value)
  /-- Finish a row. -/
  | build (keep : Option String) (draft : String)
  /-- Make a row of an identifier and cells. -/
  | rowOfCells (keep : Option String) (table : String) (id : Value) (cells : Cells)
  /-- Make a row of columns and values. -/
  | rowOfValues (keep : Option String) (table : String) (values : List (ColumnArgument × Value))
  /-- Ask for the families of a row's columns. -/
  | rowFamilies (row : String)
  /-- Insert a row. -/
  | insertRow (row : String)
  /-- Store a row through the client alone. -/
  | putRow (row : String)
  /-- Delete a row by its identifier. -/
  | deleteById (table : String) (id : Value)
  /-- Drop a table from the store and from a schema. -/
  | dropTable (schema table : String)
  /-- A command to the client. -/
  | client (c : ClientCommand)
  /-- A command to the store. -/
  | store (c : StoreCommand)

/-- What a command answers. -/
inductive Answer where
  /-- Nothing. -/
  | nothing
  /-- A truth value. -/
  | flag (b : Bool)
  /-- A text. -/
  | text (s : String)
  /-- A set of names. -/
  | names (s : NameSet)
  /-- A column, if there is one. -/
  | column (c : Option Column)
  /-- A table, if there is one. -/
  | table (t : Option Table)
  /-- A schema. -/
  | schema (s : Schema)
  /-- A request and the name of its schema. -/
  | request (r : TableRequest) (schemaName : String)
  /-- A row and its cells. -/
  | row (r : Row) (cells : Cells)
  /-- Cells, if there are any. -/
  | cells (c : Option Cells)
  /-- A memory store as it is shown, and whether it is closed. -/
  | memory (display : String) (closed : Bool)
  /-- The client can make tables, and works on the session's own store. -/
  | abilities (canCreate ownStore : Bool)

namespace Session

/-- A new session on a store. -/
def on (store : Store) : Session := ⟨Client.of store, [], ∅⟩

/-- An operation of the client. -/
def onClient {α : Type} (op : Operation Client α) : Operation Session α :=
  Operation.within client (fun s c => { s with client := c }) op

/-- An operation of the store, past the client. -/
def onStore {α : Type} (op : Operation Store α) : Operation Session α :=
  onClient (Client.onStore op)

/-- What is kept under a name. -/
def find (name : String) : Operation Session Entity := fun s =>
  match s.kept.get? name with
  | some e => (.ok e, s)
  | none => (.error (.unknownName name), s)

/-- Keep something, if it is given a name. -/
def keep (name : Option String) (e : Entity) : Operation Session Unit :=
  match name with
  | none => pure ()
  | some name => Operation.change fun s => { s with kept := s.kept.insert name e }

/-- The table of a name. -/
def findTable (name : String) : Operation Session Table := do
  match ← find name with
  | .table t => return t
  | _ => Operation.fail .noOperation

/-- The tables of several names. -/
def findTables : List String → Operation Session (List Table)
  | [] => return []
  | name :: rest => do
    let t ← findTable name
    let ts ← findTables rest
    return t :: ts

/-- The row of a name. -/
def findRow (name : String) : Operation Session Row := do
  match ← find name with
  | .row r => return r
  | _ => Operation.fail .noOperation

/-- The row draft of a name. -/
def findDraft (name : String) : Operation Session RowDraft := do
  match ← find name with
  | .draft d => return d
  | _ => Operation.fail .noOperation

/-- The request of a name and the place of its schema. -/
def findRequest (name : String) : Operation Session (TableRequest × Nat) := do
  match ← find name with
  | .request r place => return (r, place)
  | _ => Operation.fail .noOperation

/-- The live schema at a place. -/
def schemaAt (place : Nat) : Operation Session LiveSchema := do
  let s ← Operation.state
  Operation.require s.schemas[place]? .missingKey

/-- The schema of a name, and its place if it is live. -/
def findSchema (name : String) : Operation Session (Schema × Option Nat) := do
  match ← find name with
  | .live place => return (.live (← schemaAt place), some place)
  | .frozen s => return (.frozen s, none)
  | _ => Operation.fail .noOperation

/-- Put a live schema at a place. -/
def setSchema (place : Nat) (schema : LiveSchema) : Operation Session Unit :=
  Operation.change fun s => { s with schemas := s.schemas.set place schema }

/-- Add a live schema to the session and give its place. -/
def newSchema (schema : LiveSchema) : Operation Session Nat := fun s =>
  (.ok s.schemas.length, { s with schemas := s.schemas ++ [schema] })

/-- The live schema of a name and its place, if it is one. -/
def findLive (name : String) (refusal : Schema → Error) :
    Operation Session (LiveSchema × Nat) := do
  match ← findSchema name with
  | (.live s, some place) => return (s, place)
  | (s, _) => Operation.fail (refusal s)

/-- The reason why a schema that stays as it is cannot be given where tables come and go. -/
def notLive (s : Schema) : Error := .frozenSchema s.display

/-- Answer with a row and its cells. -/
def answerRow (keepAs : Option String) (r : Row) : Operation Session Answer := do
  let cells ← Operation.lift r.cells
  keep keepAs (.row r)
  return .row r cells

/-- Keep a request and answer with it. -/
def answerRequest (keepAs : Option String) (r : TableRequest) (place : Nat) :
    Operation Session Answer := do
  let schema ← schemaAt place
  keep keepAs (.request r place)
  return .request r schema.name

/-- Carry out a command to the client. -/
def clientStep : ClientCommand → Operation Session Answer
  | .createTable table families => do
    onClient (Client.createTable table families)
    return .nothing
  | .dropTable table => do
    onClient (Client.dropTable table)
    return .nothing
  | .tableExists table => return .flag (← onClient (Client.tableExists table))
  | .tableFamilies table => return .names (← onClient (Client.tableFamilies table))
  | .getRow table key => return .cells (← onClient (Client.getRow table key))
  | .deleteRow table key => do
    onClient (Client.deleteRow table key)
    return .nothing
  | .abilities => return .abilities true true

/-- Close the store; a memory store tells that it is closed. -/
def closeStore : Operation Session Answer := do
  onStore Store.close
  match (← Operation.state).client.store with
  | .memory m => return .flag m.closed
  | .gateway _ => return .nothing

/-- Show a memory store. -/
def inspectStore : Operation Session Answer := do
  match (← Operation.state).client.store with
  | .memory m => return .memory m.display m.closed
  | .gateway _ => Operation.fail .noOperation

/-- Carry out a command to the store. -/
def storeStep : StoreCommand → Operation Session Answer
  | .createTable table families => do
    onStore (Store.createTable table (NameSet.ofList families))
    return .nothing
  | .deleteTable table => do
    onStore (Store.deleteTable table)
    return .nothing
  | .tableExists table => return .flag (← onStore (Store.tableExists table))
  | .tableFamilies table => return .names (← onStore (Store.tableFamilies table))
  | .put table key cells => do
    onStore (Store.put table key cells)
    return .nothing
  | .get table key => return .cells (← onStore (Store.get table key))
  | .delete table key => do
    onStore (Store.delete table key)
    return .nothing
  | .close => closeStore
  | .inspect => inspectStore
  | .mergeRow table row cells => do
    onStore (Store.mergeRow table row cells)
    return .nothing

/-- Carry out a command. -/
def step : Command → Operation Session Answer
  | .makeTable keepAs schemaName name columns families => do
    let columns ← Operation.lift (ColumnArgument.columns columns)
    let t ← Operation.lift (Table.ofValues schemaName name columns (NameSet.ofList families))
    keep keepAs (.table t)
    return .table (some t)
  | .getColumn table name => return .column ((← findTable table).getColumn name)
  | .hasColumn table column => do
    let t ← findTable table
    let c ← Operation.lift column.column
    return .flag (t.hasColumn c)
  | .liveSchema keepAs name tables => do
    let schema := LiveSchema.ofTables name (← findTables tables)
    let place ← newSchema schema
    keep keepAs (.live place)
    return .schema (.live schema)
  | .frozenSchema keepAs name tables => do
    let schema : FrozenSchema := ⟨name, ← findTables tables⟩
    keep keepAs (.frozen schema)
    return .schema (.frozen schema)
  | .freeze keepAs schema => do
    let frozen := (← findSchema schema).1.freeze
    keep keepAs (.frozen frozen)
    return .schema (.frozen frozen)
  | .showSchema schema => return .schema (← findSchema schema).1
  | .getTable keepAs schema table => do
    match (← findSchema schema).1.getTable table with
    | some t => do
      keep keepAs (.table t)
      return .table (some t)
    | none => return .table none
  | .addTable schema table => do
    let (s, place) ← findLive schema fun _ => .noOperation
    let t ← findTable table
    setSchema place (s.addTable t)
    return .schema (.live (s.addTable t))
  | .removeTable schema table => do
    let (s, place) ← findLive schema fun _ => .noOperation
    setSchema place (s.removeTable table)
    return .table (s.getTable table)
  | .request keepAs schema table families => do
    let (_, place) ← findLive schema notLive
    let r ← Operation.lift (TableRequest.new table families)
    answerRequest keepAs r place
  | .setFamilies request families => do
    let (r, place) ← findRequest request
    let r ← Operation.lift (r.setFamilies families)
    answerRequest (some request) r place
  | .withColumn request name dataType => do
    let (r, place) ← findRequest request
    let r ← Operation.lift (r.withColumn name dataType)
    answerRequest (some request) r place
  | .showRequest request => do
    let (r, place) ← findRequest request
    answerRequest none r place
  | .execute keepAs request => do
    let (r, place) ← findRequest request
    let schema ← schemaAt place
    let (t, schema, r) ← onClient (r.execute schema)
    setSchema place schema
    keep (some request) (.request r place)
    keep keepAs (.table t)
    return .table (some t)
  | .draft keepAs table => do
    let t ← findTable table
    keep keepAs (.draft (RowDraft.new t))
    return .text t.name
  | .stageId draft v => do
    let d ← Operation.lift ((← findDraft draft).stageId v)
    keep (some draft) (.draft d)
    return .nothing
  | .stage draft column v => do
    let d ← findDraft draft
    let d ← Operation.lift (match column with
      | .named name => d.stageNamed name v
      | .given c => d.stage c v)
    keep (some draft) (.draft d)
    return .nothing
  | .build keepAs draft => do answerRow keepAs (← findDraft draft).build
  | .rowOfCells keepAs table id cells => do
    let r ← Operation.lift (Row.ofCells (← findTable table) id cells)
    answerRow keepAs r
  | .rowOfValues keepAs table values => do
    let t ← findTable table
    let values ← Operation.lift (ColumnArgument.pairs values)
    answerRow keepAs ⟨t, OrderedMap.ofList values⟩
  | .rowFamilies row => return .names (Column.familiesOf (← findRow row).columns)
  | .insertRow row => return .text (← onClient (Client.insertRow (← findRow row)))
  | .putRow row => return .text (← onClient (Client.putRow (← findRow row)))
  | .deleteById table id => do
    onClient (Client.deleteById (← findTable table) id)
    return .nothing
  | .dropTable schema table => do
    let (s, place) ← findLive schema notLive
    let s ← onClient (Client.dropFrom s table)
    setSchema place s
    return .nothing
  | .client c => clientStep c
  | .store c => storeStep c

/-- What a command answers, and what was logged and called meanwhile. -/
structure Report where
  /-- The answer, or the cause of failure. -/
  result : Except Error Answer
  /-- The log records. -/
  log : List LogRecord
  /-- The calls that a server received. -/
  calls : List Call

/-- The session with an empty log and no calls on record. -/
def quiet (s : Session) : Session :=
  { s with client := { s.client with log := [], store := s.client.store.forgetCalls } }

/-- Carry out a command with its own log and its own record of calls. -/
def perform (c : Command) (s : Session) : Report × Session :=
  let (result, s') := step c s.quiet
  (⟨result, s'.client.log, s'.client.store.calls⟩, s')

/-- The session after commands were carried out in turn, whether they failed or not. -/
def after (s : Session) (cs : List Command) : Session := cs.foldl (fun s c => (perform c s).2) s

/-- A new session on a store with one live schema, without tables and kept under a name. -/
def withSchema (store : Store) (handle name : String) : Session :=
  (perform (.liveSchema (some handle) name []) (on store)).2

end Session

end WideColumn
