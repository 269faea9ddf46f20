import WideColumn.Row.Cells
import WideColumn.Table

/-!
# Rows

A row of a table: values for columns, in the order in which they were given. The
identifier's value becomes the row key; all other values become cells. A cell
given twice, once alone and once within its family, has the later value.
-/

namespace WideColumn

/-- The text under which a row with this identifier is stored; bytes have to be UTF-8. -/
def Value.rowKey : Value → Except Error String
  | .bytes b =>
    match b.text? with
    | some s => .ok s
    | none => .error .undecodable
  | v => .ok v.plainText

/-- Values for columns of a table. -/
structure Row where
  /-- The table that the row is for. -/
  table : Table
  /-- The values, in the order in which their columns were first given. -/
  values : OrderedMap Column Value

namespace Row

/-- The columns that have a value. -/
def columns (r : Row) : List Column := r.values.keys

/-- The value of the first identifier column. -/
def idValue? (r : Row) : Option Value :=
  (r.values.entries.find? fun e => e.1.isIdentifier).map Prod.snd

/-- The identifier's value; a row without identifier has the missing value. -/
def idValue (r : Row) : Value := r.idValue?.getD .null

/-- Add what one value contributes: nothing for the identifier, one cell for a qualifier, a cell
for each binding for a whole family. -/
def contribute (cells : Cells) (c : Column) (v : Value) : Except Error Cells :=
  match c.family, c.qualifier with
  | none, _ => .ok cells
  | some family, some qualifier => .ok (cells.addFamily family [(qualifier, v)])
  | some family, none =>
    match v.bindings with
    | .ok entries => .ok (cells.addFamily family (Cells.textKeyed entries))
    | .error e => .error e

/-- Add what the values of a list contribute, in turn. -/
def contributeAll : Cells → List (Column × Value) → Except Error Cells
  | cells, [] => .ok cells
  | cells, e :: rest =>
    match contribute cells e.1 e.2 with
    | .ok cells => contributeAll cells rest
    | .error e => .error e

/-- The cells of the row. -/
def cells (r : Row) : Except Error Cells := contributeAll ∅ r.values.entries

end Row

end WideColumn
