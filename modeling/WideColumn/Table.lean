import WideColumn.Column
import WideColumn.FieldCheck

/-!
# Tables

A table of a schema: its name, the columns it declares in their order and the
families it has. A column that stands for a whole family covers every qualifier
of that family.
-/

namespace WideColumn

/-- A table as a schema knows it. -/
structure Table where
  /-- The name of the schema that the table was made for. -/
  schemaName : String
  /-- The name of the table. -/
  name : String
  /-- The declared columns, in order. -/
  columns : List Column
  /-- The families. -/
  families : NameSet
  deriving DecidableEq

namespace Table

/-- Make a table of values of any kind; both names have to be texts. -/
def ofValues (schemaName name : Value) (columns : List Column) (families : NameSet) :
    Except Error Table :=
  let s := FieldCheck.text "schema_name" schemaName
  let t := FieldCheck.text "table_name" name
  match s, t with
  | .ok s, .ok t => .ok ⟨s, t, columns, families⟩
  | s, t => .error (.invalidFields (FieldCheck.faults s ++ FieldCheck.faults t))

/-- The first identifier column. -/
def idColumn (t : Table) : Option Column := t.columns.find? Column.isIdentifier

/-- The first column of a name. -/
def getColumn (t : Table) (name : String) : Option Column := t.columns.find? fun c => c.name = name

/-- The declared column is the given one or stands for its whole family. -/
def covers (declared column : Column) : Bool :=
  decide (declared.family = column.family ∧
    (declared.qualifier = none ∨ declared.qualifier = column.qualifier))

/-- The table takes values for the column. -/
def hasColumn (t : Table) (column : Column) : Bool :=
  match column.family with
  | none => t.idColumn.isSome
  | some family => decide (family ∈ t.families) && t.columns.any fun c => covers c column

/-- The column found under a name has that name. -/
theorem name_of_getColumn {t : Table} {n : String} {c : Column} (h : t.getColumn n = some c) :
    c.name = n := by
  simpa using List.find?_some h

/-- The column found under a name is a declared one. -/
theorem mem_of_getColumn {t : Table} {n : String} {c : Column} (h : t.getColumn n = some c) :
    c ∈ t.columns :=
  List.mem_of_find?_eq_some h

/-- The identifier column found is an identifier. -/
theorem isIdentifier_of_idColumn {t : Table} {c : Column} (h : t.idColumn = some c) :
    c.isIdentifier = true :=
  List.find?_some h

end Table

end WideColumn
