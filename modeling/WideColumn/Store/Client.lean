import WideColumn.Row.Basic
import WideColumn.Store.Basic
import WideColumn.Store.Log
import WideColumn.Text.Blank

/-!
# Store clients

The one way to a store. A client checks what it is asked before it asks the
store: a table needs a name and families that are not blank, and all other
operations need the table to exist. It keeps a log and hands out row keys for
rows that bring no identifier.
-/

namespace WideColumn

/-- What a caller gives as the families of a table. -/
inductive FamilyArgument where
  /-- Nothing. -/
  | missing
  /-- A collection of names. -/
  | names (l : List String)
  /-- A single name where a collection belongs. -/
  | single (given : SingleName)

/-- A client of a store. -/
structure Client where
  /-- The store. -/
  store : Store
  /-- How many row keys have been handed out. -/
  keysUsed : Nat
  /-- The log, oldest record first. -/
  log : List LogRecord

namespace Client

/-- A client of a store, with nothing logged and no key handed out. -/
def of (store : Store) : Client := ⟨store, 0, []⟩

/-- An operation on the store. -/
def onStore {α : Type} (op : Operation Store α) : Operation Client α :=
  Operation.within store (fun c s => { c with store := s }) op

/-- Add a record to the log. -/
def note (level : Level) (message : String) : Operation Client Unit :=
  Operation.change fun c => { c with log := c.log ++ [⟨level, message⟩] }

/-- The row key for a count: its 32 hexadecimal digits. -/
def keyOfCount (n : Nat) : String := String.ofList (Text.hexDigits 32 n)

/-- Hand out the next row key. -/
def nextKey : Operation Client String := fun c =>
  (.ok (keyOfCount (c.keysUsed + 1)), { c with keysUsed := c.keysUsed + 1 })

/-- The name and the families of a table to make, if they will do. A single name is refused first;
then a name and a family are needed, and no family may be blank. -/
def checkedTable (table : Option String) (families : FamilyArgument) :
    Except Error (String × NameSet) :=
  match families, table with
  | .single given, _ => .error (.familiesNotCollection given)
  | .missing, _ => .error .nameOrFamiliesMissing
  | .names _, none => .error .nameOrFamiliesMissing
  | .names l, some table =>
    if table = "" ∨ l = [] ∨ l.any Text.isBlank then .error .nameOrFamiliesMissing
    else .ok (table, NameSet.ofList l)

/-- Make a table. -/
def createTable (table : Option String) (families : FamilyArgument) : Operation Client Unit := do
  let (table, families) ← Operation.lift (checkedTable table families)
  let shown := (Value.list (families.names.map Value.text)).literal
  note .debug ("Creating table " ++ table ++ " with column families " ++ shown ++ ".")
  onStore (Store.createTable table families)
  note .info ("Created table " ++ table ++ ".")

/-- The store has a table of that name. -/
def tableExists (table : String) : Operation Client Bool := onStore (Store.tableExists table)

/-- Fail unless the store has the table. -/
def requireTable (table : String) : Operation Client Unit := do
  if (← tableExists table) then pure () else Operation.fail (.noSuchTable table)

/-- Drop a row, if it is there. -/
def deleteRow (table key : String) : Operation Client Unit := do
  requireTable table
  onStore (Store.delete table key)

/-- Drop a table with its rows. -/
def dropTable (table : String) : Operation Client Unit := do
  requireTable table
  onStore (Store.deleteTable table)
  note .info ("Dropped table " ++ table ++ ".")

/-- The families of a table. -/
def tableFamilies (table : String) : Operation Client NameSet := do
  requireTable table
  onStore (Store.tableFamilies table)

/-- The cells of a row. -/
def getRow (table key : String) : Operation Client (Option Cells) := do
  requireTable table
  onStore (Store.get table key)

/-- The key of a row: its identifier's, or the next one when it has none. -/
def keyOfRow (r : Row) : Operation Client String :=
  match r.idValue with
  | .null => nextKey
  | v => Operation.lift v.rowKey

/-- Store a row and give the key under which it is stored. -/
def putRow (r : Row) : Operation Client String := do
  requireTable r.table.name
  let key ← keyOfRow r
  note .debug ("Putting row " ++ key ++ " into " ++ r.table.name ++ ".")
  let cells ← Operation.lift r.cells
  onStore (Store.put r.table.name key cells)
  return key

end Client

end WideColumn
