import WideColumn.Row.Basic

/-!
# Row drafts

A row in the making. Every value is checked against the table when it is staged:
its column has to be one that the table takes, a whole family needs a mapping,
and the identifier is given at most once. A value is kept under the table's own
column of that name, so the finished row carries the declared types.
-/

namespace WideColumn

/-- The staged values of a row. -/
structure RowDraft where
  /-- The table that the row is for. -/
  table : Table
  /-- The identifier, once it has been given. -/
  id : Option Value
  /-- The other values, in the order in which their columns were first given. -/
  values : OrderedMap Column Value

namespace RowDraft

/-- A draft without values. -/
def new (table : Table) : RowDraft := ⟨table, none, ∅⟩

/-- Give the identifier. -/
def stageId (d : RowDraft) (v : Value) : Except Error RowDraft :=
  match d.table.idColumn, d.id with
  | none, _ => .error (.columnNotInTable Column.identifierName d.table.name)
  | some _, some _ => .error (.repeatedIdentifier d.table.name)
  | some _, none => .ok { d with id := some v }

/-- The table's own column of the same name, or the column itself. -/
def resolve (table : Table) (c : Column) : Column := (table.getColumn c.name).getD c

/-- Give the value of a column. -/
def stage (d : RowDraft) (c : Column) (v : Value) : Except Error RowDraft :=
  match c.family with
  | none => d.stageId v
  | some family =>
    if d.table.hasColumn c = false then .error (.columnNotInTable c.name d.table.name)
    else if c.qualifier = none ∧ v.isMapping = false then
      .error (.familyNeedsMapping family v.kindName)
    else .ok { d with values := d.values.insert (resolve d.table c) v }

/-- Give the value of the column that a name stands for. -/
def stageNamed (d : RowDraft) (name : String) (v : Value) : Except Error RowDraft :=
  match Column.parse name none with
  | .ok c => d.stage c v
  | .error e => .error e

/-- The values of the finished row: the identifier first, then the others. -/
def finishedValues (d : RowDraft) : OrderedMap Column Value :=
  let start : OrderedMap Column Value :=
    match d.table.idColumn, d.id with
    | some c, some v => OrderedMap.insert ∅ c v
    | _, _ => ∅
  start.union d.values

/-- The finished row. -/
def build (d : RowDraft) : Row := ⟨d.table, d.finishedValues⟩

/-- Stage cells of one family, each under its joined name. -/
def stageFamily (d : RowDraft) (family : String) :
    List (String × Value) → Except Error RowDraft
  | [] => .ok d
  | (qualifier, v) :: rest =>
    match d.stageNamed (Column.joinName family qualifier) v with
    | .ok d => stageFamily d family rest
    | .error e => .error e

/-- Stage cells of several families. -/
def stageCells (d : RowDraft) : List (String × OrderedMap String Value) → Except Error RowDraft
  | [] => .ok d
  | (family, values) :: rest =>
    match d.stageFamily family values.entries with
    | .ok d => stageCells d rest
    | .error e => .error e

end RowDraft

/-- The row with the given identifier, unless that is missing, and the given cells. -/
def Row.ofCells (table : Table) (id : Value) (cells : Cells) : Except Error Row := do
  let draft ← match id with
    | .null => .ok (RowDraft.new table)
    | v => (RowDraft.new table).stageId v
  let draft ← draft.stageCells cells.entries
  return draft.build

end WideColumn
