import WideColumn.Schema
import WideColumn.Store.Client

/-!
# Rows and tables come and go

What callers do with the rows and tables of a schema: insert a row, delete a row
by its identifier, and drop a table from the store and from its schema.
-/

namespace WideColumn

namespace Client

/-- Insert a row and give the key under which it is stored. -/
def insertRow (r : Row) : Operation Client String := do
  let key ← putRow r
  note .debug ("Inserted row " ++ key ++ " into " ++ r.table.name ++ ".")
  return key

/-- Delete the row with an identifier from a table that has an identifier column. -/
def deleteById (t : Table) (id : Value) : Operation Client Unit := do
  if t.idColumn.isNone then
    Operation.fail (.columnNotInTable Column.identifierName t.name)
  let key ← Operation.lift id.rowKey
  deleteRow t.name key
  note .debug ("Deleted row " ++ id.plainText ++ " from " ++ t.name ++ ".")

/-- Drop a table from the store and from its schema, which is given back. -/
def dropFrom (s : LiveSchema) (table : String) : Operation Client LiveSchema := do
  dropTable table
  return s.removeTable table

end Client

end WideColumn
