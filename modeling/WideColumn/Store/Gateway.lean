import WideColumn.Column
import WideColumn.Row.Cells
import WideColumn.Store.Server
import WideColumn.Value.Encoding

/-!
# Stores behind a column server

The operations of a store, carried out by calls to a column server. A cell is
sent under its family and qualifier with a colon between them, and a name that
comes back is cut at its first colon. A row without cells reads as no row.
-/

namespace WideColumn.Gateway

/-- The name under which a cell is stored. -/
def cellKey (family qualifier : String) : Bytes := .ofText (Column.joinName family qualifier)

/-- What is sent for cells: each value encoded under its joined name. -/
def encodeCells (cells : Cells) : OrderedMap Bytes Bytes :=
  OrderedMap.ofList (cells.entries.flatMap fun e =>
    e.2.entries.map fun q => (cellKey e.1 q.1, q.2.encode))

/-- Add a stored value to the cells under the family and qualifier of its name. -/
def decodeEntry (cells : Cells) (key value : Bytes) : Except Error Cells :=
  match key.text? with
  | some name =>
    let (family, qualifier) := Column.splitName name
    .ok (cells.addFamily family [(qualifier.getD "", .bytes value)])
  | none => .error .undecodable

/-- The cells of a stored row. -/
def decodeEntries : Cells → List (Bytes × Bytes) → Except Error Cells
  | cells, [] => .ok cells
  | cells, e :: rest =>
    match decodeEntry cells e.1 e.2 with
    | .ok cells => decodeEntries cells rest
    | .error e => .error e

/-- A row without values reads as no row. -/
def decodeRow (row : ServerRow) : Except Error (Option Cells) :=
  if row.isEmpty then .ok none else (decodeEntries ∅ row.entries).map some

/-- The names behind a list of spellings. -/
def decodeNames : List WireName → Except Error (List String)
  | [] => .ok []
  | w :: rest =>
    match w.decode, decodeNames rest with
    | .ok s, .ok names => .ok (s :: names)
    | .error e, _ => .error e
    | _, .error e => .error e

/-- A name without the colons at its end. -/
def trimColons (s : String) : String :=
  String.ofList (s.toList.reverse.dropWhile (· = ':')).reverse

/-- Make a table. -/
def createTable (table : String) (families : NameSet) : Operation Server Unit :=
  Server.createTable table families.names

/-- Drop a table. -/
def deleteTable (table : String) : Operation Server Unit := Server.deleteTable table true

/-- The server has a table of that name. -/
def tableExists (table : String) : Operation Server Bool := do
  let names ← Server.tableNames
  let names ← Operation.lift (decodeNames names)
  return decide (table ∈ names)

/-- The families of a table, without the suffix that the server puts after them. -/
def tableFamilies (table : String) : Operation Server NameSet := do
  let t ← Server.findTable table
  let names ← Server.familyNames table t
  let names ← Operation.lift (decodeNames names)
  return NameSet.ofList (names.map trimColons)

/-- Put cells into a row. -/
def put (table key : String) (cells : Cells) : Operation Server Unit := do
  let t ← Server.findTable table
  Server.put table t (.ofText key) (encodeCells cells).entries

/-- The cells of a row. -/
def get (table key : String) : Operation Server (Option Cells) := do
  let t ← Server.findTable table
  let row ← Server.row table t (.ofText key)
  Operation.lift (decodeRow row)

/-- Drop a row. -/
def delete (table key : String) : Operation Server Unit := do
  let t ← Server.findTable table
  Server.delete table t (.ofText key)

end WideColumn.Gateway
