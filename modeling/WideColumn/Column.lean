import WideColumn.Collections.NameSet
import WideColumn.Error

/-!
# Columns and their names

A column is the identifier of a row, a cell under a family, or a whole family.
A column name is the reserved word `_id`, a family, or a family and a qualifier
with a colon between them. Only the first colon separates, so a qualifier may
hold further ones. Main facts: the cut at the first colon loses nothing, and a
name that is read back gives the text it was read from.
-/

namespace WideColumn

/-- What the cells of a column hold. -/
inductive DataType where
  /-- Bytes of any kind. -/
  | binary
  /-- Integers. -/
  | int
  /-- Mappings of qualifier to value. -/
  | map
  /-- Texts. -/
  | text
  deriving DecidableEq, Repr

/-- A column: the identifier when it has no family, else a cell or a whole family. -/
structure Column where
  /-- The family; the identifier has none. -/
  family : Option String
  /-- The qualifier; a whole family has none. -/
  qualifier : Option String
  /-- What the cells hold. -/
  dataType : DataType
  deriving DecidableEq, Repr

namespace Column

/-- The reserved name of the identifier. -/
def identifierName : String := "_id"

/-- Cut a row of characters at the first colon; the second part is missing if there is none. -/
def cutColon : List Char → List Char × Option (List Char)
  | [] => ([], none)
  | c :: rest =>
    if c = ':' then ([], some rest)
    else
      let (before, after) := cutColon rest
      (c :: before, after)

/-- The parts of a text before and after the first colon. -/
def splitName (s : String) : String × Option String :=
  let (before, after) := cutColon s.toList
  (String.ofList before, after.map String.ofList)

/-- A family and a qualifier with a colon between them. -/
def joinName (family qualifier : String) : String := family ++ ":" ++ qualifier

/-- The name of a column. -/
def name (c : Column) : String :=
  match c.family, c.qualifier with
  | none, _ => identifierName
  | some family, none => family
  | some family, some qualifier => joinName family qualifier

/-- The column is the identifier. -/
def isIdentifier (c : Column) : Bool := c.family.isNone

/-- The identifier column. -/
def identifier (dataType : DataType) : Column := ⟨none, none, dataType⟩

/-- The column that stands for a whole family. -/
def wholeFamily (family : String) (dataType : DataType) : Column :=
  ⟨some family, none, dataType⟩

/-- The column of one cell of a family. -/
def cell (family qualifier : String) (dataType : DataType) : Column :=
  ⟨some family, some qualifier, dataType⟩

/-- Read a column name. A name needs a family before the first colon and, if there is a colon, a
qualifier after it. -/
def parse (name : String) (dataType : Option DataType) : Except Error Column :=
  if name = identifierName then .ok (identifier (dataType.getD .binary))
  else
    match splitName name with
    | (family, none) =>
      if family = "" then .error (.invalidColumnName name)
      else .ok (wholeFamily family (dataType.getD .map))
    | (family, some qualifier) =>
      if family = "" ∨ qualifier = "" then .error (.invalidColumnName name)
      else .ok (cell family qualifier (dataType.getD .binary))

/-- The families that columns belong to. -/
def familiesOf (columns : List Column) : NameSet := NameSet.ofList (columns.filterMap family)

/-- Putting the parts together again gives back what was cut. -/
theorem cutColon_join (cs : List Char) :
    (cutColon cs).1 ++ (match (cutColon cs).2 with | none => [] | some r => ':' :: r) = cs := by
  induction cs with
  | nil => rfl
  | cons c rest ih =>
    by_cases h : c = ':'
    · simp [cutColon, h]
    · simpa [cutColon, h] using ih

/-- No colon stands before the cut. -/
theorem colon_not_mem_cutColon (cs : List Char) : ':' ∉ (cutColon cs).1 := by
  induction cs with
  | nil => simp [cutColon]
  | cons c rest ih =>
    by_cases h : c = ':'
    · simp [cutColon, h]
    · have h' : ¬ ':' = c := fun he => h he.symm
      simp [cutColon, h, h', ih]

/-- A text without a colon is not cut. -/
theorem cutColon_of_not_mem {cs : List Char} (h : ':' ∉ cs) : cutColon cs = (cs, none) := by
  induction cs with
  | nil => rfl
  | cons c rest ih =>
    have hc : ¬ c = ':' := fun he => h (by simp [he])
    simp [cutColon, hc, ih fun hm => h (List.mem_cons_of_mem _ hm)]

/-- The cut is at the first colon, whatever follows it. -/
theorem cutColon_append {cs : List Char} (h : ':' ∉ cs) (rest : List Char) :
    cutColon (cs ++ ':' :: rest) = (cs, some rest) := by
  induction cs with
  | nil => simp [cutColon]
  | cons c cs ih =>
    have hc : ¬ c = ':' := fun he => h (by simp [he])
    simp [cutColon, hc, ih fun hm => h (List.mem_cons_of_mem _ hm)]

/-- Splitting a joined name gives back its parts when the family has no colon. -/
theorem splitName_joinName {family : String} (h : ':' ∉ family.toList) (qualifier : String) :
    splitName (joinName family qualifier) = (family, some qualifier) := by
  have he : (joinName family qualifier).toList = family.toList ++ ':' :: qualifier.toList := by
    simp [joinName]
  simp [splitName, he, cutColon_append h]

/-- A text without a colon is a family without a qualifier. -/
theorem splitName_of_not_mem {s : String} (h : ':' ∉ s.toList) : splitName s = (s, none) := by
  simp [splitName, cutColon_of_not_mem h]

@[simp] theorem isIdentifier_identifier (t : DataType) : (identifier t).isIdentifier = true := rfl

@[simp] theorem name_identifier (t : DataType) : (identifier t).name = identifierName := rfl

@[simp] theorem name_wholeFamily (family : String) (t : DataType) :
    (wholeFamily family t).name = family := rfl

@[simp] theorem name_cell (family qualifier : String) (t : DataType) :
    (cell family qualifier t).name = joinName family qualifier := rfl

@[simp] theorem mem_familiesOf {columns : List Column} {f : String} :
    f ∈ familiesOf columns ↔ ∃ c ∈ columns, c.family = some f := by
  simp [familiesOf]

end Column

end WideColumn
