import WideColumn.Collections.NameSet
import WideColumn.Operation
import WideColumn.Row.Cells
import WideColumn.Value.Copying

/-!
# Memory stores

A store that lives and dies with the program. It keeps two catalogues in step:
the families of each table, and the rows of each table. A row is put on top of
what is stored under its key, family by family and qualifier by qualifier. The
store keeps copies of the values, and what was put before a value that cannot be
copied stays put.
-/

namespace WideColumn

/-- The rows of a table under their keys. -/
abbrev Rows := OrderedMap String Cells

/-- Put copies of the values of one family into a row. The family is there before its values are
copied. -/
def Cells.copyFamily (family : String) (values : OrderedMap String Value) :
    Operation Cells Unit := do
  Operation.change fun row => row.addFamily family []
  let copies ← Operation.lift (Value.copyNamed values.entries)
  Operation.change fun row => row.addFamily family copies

/-- Put copies of the values of several families into a row, family by family. -/
def Cells.copyFamilies : List (String × OrderedMap String Value) → Operation Cells Unit
  | [] => pure ()
  | e :: rest => do
    copyFamily e.1 e.2
    copyFamilies rest

/-- A store in memory. -/
structure Memory where
  /-- The families of each table, in the order in which the tables were made. -/
  families : OrderedMap String NameSet
  /-- The rows of each table. -/
  rows : OrderedMap String Rows
  /-- The store has been closed. -/
  closed : Bool

namespace Memory

/-- A new store without tables. -/
def empty : Memory := ⟨∅, ∅, false⟩

instance : Inhabited Memory := ⟨empty⟩

/-- Close the store. -/
def close : Operation Memory Unit := Operation.change fun m => { m with closed := true }

/-- The store knows a table of that name. -/
def tableExists (table : String) : Operation Memory Bool := fun m =>
  (.ok (m.families.contains table), m)

/-- The rows of a table. -/
def tableRows (table : String) : Operation Memory Rows := fun m =>
  match m.rows.get? table with
  | some rows => (.ok rows, m)
  | none => (.error (.noSuchTable table), m)

/-- The families that the first catalogue holds for a table. -/
def declaredFamilies (table : String) : Operation Memory NameSet := fun m =>
  match m.families.get? table with
  | some fs => (.ok fs, m)
  | none => (.error .missingKey, m)

/-- Make a table without rows. -/
def createTable (table : String) (fs : NameSet) : Operation Memory Unit := do
  if (← tableExists table) then Operation.fail (.tableExists table)
  else Operation.change fun m =>
    { m with families := m.families.insert table fs, rows := m.rows.insert table ∅ }

/-- Take a table out of the first catalogue. -/
def forgetFamilies (table : String) : Operation Memory Unit := do
  let _ ← declaredFamilies table
  Operation.change fun m => { m with families := m.families.erase table }

/-- Take a table out of the second catalogue. -/
def forgetRows (table : String) : Operation Memory Unit := do
  let _ ← tableRows table
  Operation.change fun m => { m with rows := m.rows.erase table }

/-- Drop a table with its rows. -/
def deleteTable (table : String) : Operation Memory Unit := do
  let _ ← tableRows table
  forgetFamilies table
  forgetRows table

/-- The cells stored under a row key. What is stored was copied, and can be copied again. -/
def get (table key : String) : Operation Memory (Option Cells) := do
  let rows ← tableRows table
  return rows.get? key

/-- Drop a row, if it is there. -/
def delete (table key : String) : Operation Memory Unit := do
  let rows ← tableRows table
  Operation.change fun m => { m with rows := m.rows.insert table (rows.erase key) }

/-- The families of a table. -/
def tableFamilies (table : String) : Operation Memory NameSet := do
  let _ ← tableRows table
  declaredFamilies table

/-- Work on the row under a key of a table with the given rows; a row that is not there is made. -/
def onRow {α : Type} (table key : String) (rows : Rows) (op : Operation Cells α) :
    Operation Memory α :=
  Operation.within (fun _ => (rows.get? key).getD ∅)
    (fun m row => { m with rows := m.rows.insert table (rows.insert key row) }) op

/-- Put copies of cells on top of what is stored under a row key. Every family has to be one of the
table's. -/
def put (table key : String) (cells : Cells) : Operation Memory Unit := do
  let rows ← tableRows table
  let declared ← declaredFamilies table
  let unknown := (NameSet.ofList cells.families).diff declared
  if unknown.isEmpty then onRow table key rows (Cells.copyFamilies cells.entries)
  else Operation.fail (.unknownCellFamilies unknown.names table)

/-- How a memory store is shown: by its table names in increasing order. -/
def display (m : Memory) : String :=
  let names := (NameSet.ofList m.families.keys).names.map Value.text
  "MemoryConnection(tables=" ++ (Value.list names).literal ++ ")"

end Memory

end WideColumn
