import WideColumn.Document.Fault
import WideColumn.Value.Basic

/-!
# Causes of failure

Every way in which an operation can fail, as one type of causes, with the
category it belongs to and the text that tells of it. A cause without a category
comes from below the library: bytes that are no text, a table that the server
does not have, a value of the wrong kind. Its text only names the kind of cause.
-/

namespace WideColumn

/-- A rule that a field of a record breaks. -/
inductive FieldRule where
  /-- The field has to be a text. -/
  | text
  /-- The field has to be an integer. -/
  | integer
  /-- The field has to be greater than zero. -/
  | positive
  deriving DecidableEq, Repr

/-- A field and the rule that it breaks. -/
structure FieldFault where
  /-- The name of the field. -/
  field : String
  /-- The item that breaks the rule, when the field is a list. -/
  item : Option Nat
  /-- The rule that it breaks. -/
  rule : FieldRule
  deriving DecidableEq, Repr

/-- Who has to mend a failure. -/
inductive Category where
  /-- The caller passed something that can be refused without asking the store. -/
  | argument
  /-- The request is well formed, but the rules of the domain forbid it. -/
  | rule
  /-- The store refused. -/
  | store
  /-- The configuration is at fault. -/
  | configuration
  deriving DecidableEq, Repr

/-- A single value where a collection of names belongs. -/
inductive SingleName where
  /-- A text. -/
  | text (s : String)
  /-- A byte string. -/
  | bytes (b : Bytes)

/-- The single name as a value. -/
def SingleName.value : SingleName → Value
  | text s => .text s
  | bytes b => .bytes b

/-- A cause of failure. -/
inductive Error where
  /-- A schema that cannot change was given where tables come and go. -/
  | frozenSchema (schema : String)
  /-- A table was to be created without a name or without a family that has a name. -/
  | nameOrFamiliesMissing
  /-- A single name was given where a collection of family names belongs. -/
  | familiesNotCollection (given : SingleName)
  /-- The column is none of the table's. -/
  | columnNotInTable (column table : String)
  /-- A second identifier was given for a row. -/
  | repeatedIdentifier (table : String)
  /-- The text is no column name. -/
  | invalidColumnName (name : String)
  /-- A whole family was given something other than a mapping. -/
  | familyNeedsMapping (family kind : String)
  /-- An option has an empty value. -/
  | optionRequired (option : String)
  /-- The command line names no command. -/
  | commandMissing
  /-- Memory stores hold nothing to inspect or drop. -/
  | memoryStoreIsEmpty (store : String)
  /-- A table was requested without families. -/
  | familiesMissing
  /-- A declared column belongs to a family that was not requested. -/
  | unknownFamily (column : String) (table : Option String)
  /-- The request has been carried out before. -/
  | alreadyExecuted (table : Option String)
  /-- The store has no such table. -/
  | noSuchTable (table : String)
  /-- The store has the table already. -/
  | tableExists (table : String)
  /-- Cells were given for families that the table does not have. -/
  | unknownCellFamilies (families : List String) (table : String)
  /-- The store refused for a reason of its own. -/
  | storeFailure (reason : String)
  /-- There is no configuration file at the path. -/
  | fileMissing (path : String)
  /-- The configuration file is no document. -/
  | invalidDocument (path : String) (fault : Document.Fault)
  /-- The document lacks an entry. -/
  | entryMissing (key : String)
  /-- A store of the document lacks an entry. -/
  | storeEntryMissing (key : String)
  /-- A store of the document names an unknown interface. -/
  | unknownInterface (given : Value)
  /-- A store behind a server lacks the server's host. -/
  | hostMissing (store : Value)
  /-- Fields of a store of the document break their rules. -/
  | invalidStore (store : Value) (faults : List FieldFault)
  /-- Fields of the document break their rules. -/
  | invalidConfiguration (faults : List FieldFault)
  /-- The configuration has no store of that name. -/
  | unknownStore (store : String)
  /-- Bytes are not the UTF-8 form of a text. -/
  | undecodable
  /-- A look-up found nothing. -/
  | missingKey
  /-- A value is of a kind that the operation cannot take. -/
  | wrongKind
  /-- A value lacks the operation asked of it. -/
  | noOperation
  /-- A value is of the right kind but out of bounds. -/
  | badValue
  /-- A file was expected and a directory found. -/
  | isDirectory
  /-- The system below refused. -/
  | systemRefused
  /-- Fields of a record break their rules. -/
  | invalidFields (faults : List FieldFault)
  /-- A name stands for nothing. -/
  | unknownName (name : String)

namespace Error

/-- The category of a cause, for those that are the library's own. -/
def category : Error → Option Category
  | frozenSchema _ | nameOrFamiliesMissing | familiesNotCollection _ | columnNotInTable _ _
  | repeatedIdentifier _ | invalidColumnName _ | familyNeedsMapping _ _ | optionRequired _
  | commandMissing | memoryStoreIsEmpty _ => some .argument
  | familiesMissing | unknownFamily _ _ | alreadyExecuted _ => some .rule
  | noSuchTable _ | tableExists _ | unknownCellFamilies _ _ | storeFailure _ => some .store
  | fileMissing _ | invalidDocument _ _ | entryMissing _ | storeEntryMissing _
  | unknownInterface _ | hostMissing _ | invalidStore _ _ | invalidConfiguration _
  | unknownStore _ => some .configuration
  | undecodable | missingKey | wrongKind | noOperation | badValue | isDirectory | systemRefused
  | invalidFields _ | unknownName _ => none

/-- What stands in a message for the list of field faults. -/
def faultListMark : String := "<validation>"

/-- A table name in a message, where it may be missing. -/
def nameText : Option String → String
  | none => Value.null.literal
  | some name => name

/-- The text that tells of a cause. -/
def message : Error → String
  | frozenSchema schema => "Not a mutable schema: " ++ schema
  | nameOrFamiliesMissing => "Can't create a table without having the tableName or columnFamilies"
  | familiesNotCollection given =>
    "The column families must be a collection of names, but got the single value " ++
      given.value.literal ++ "."
  | columnNotInTable column table =>
    "The column, " ++ column ++ ", doesn't belong to the table, " ++ table ++ "."
  | repeatedIdentifier table =>
    "A row for " ++ table ++ " can only have one value for the identifier column."
  | invalidColumnName name =>
    "The column name, " ++ Text.quoteText name ++
      ", is not of the form 'family' or 'family:qualifier'."
  | familyNeedsMapping family kind =>
    "The value for the column family, " ++ family ++
      ", must be a mapping of qualifier to value, but got " ++ kind ++ "."
  | optionRequired option => option ++ " is required."
  | commandMissing => "Unrecognized command, " ++ Value.null.literal ++ "."
  | memoryStoreIsEmpty store =>
    "--store " ++ store ++ " is a memory store, which starts empty on every run, " ++
      "so it has no tables to inspect or drop."
  | familiesMissing => "Creating a table without columnFamilies"
  | unknownFamily column table =>
    "The column, " ++ column ++ ", belongs to a column family that " ++ nameText table ++
      " is not being created with."
  | alreadyExecuted table =>
    "The create table request for " ++ nameText table ++ " has already been executed."
  | noSuchTable table => "The table, " ++ table ++ ", doesn't exist."
  | tableExists table => "The table, " ++ table ++ ", already exists."
  | unknownCellFamilies families table =>
    "The column families, " ++ Value.commaSeparated families ++ ", don't exist in " ++ table ++ "."
  | storeFailure reason => reason
  | fileMissing path => "The config file specified, " ++ path ++ ", does not exist."
  | invalidDocument path fault =>
    "The config file, " ++ path ++ ", is not valid json: " ++ fault.message
  | entryMissing key => "config file is missing an entry for " ++ Text.quoteText key ++ "."
  | storeEntryMissing key =>
    "store entry in config file is missing an entry for " ++ Text.quoteText key ++ "."
  | unknownInterface given =>
    "could not convert api entry, " ++ given.literal ++ ", to a data.API instance."
  | hostMissing store =>
    "store entry, " ++ store.plainText ++
      ", uses the happybase api, so it must provide a 'host'."
  | invalidStore store _ => "store entry, " ++ store.plainText ++ ", is invalid: " ++ faultListMark
  | invalidConfiguration _ => "An error occurred while loading the config file: " ++ faultListMark
  | unknownStore store =>
    "--store was " ++ store ++ ", but could not find a store entry by that name in the config file."
  | undecodable => "The bytes are not the UTF-8 form of a text."
  | missingKey => "A look-up found nothing."
  | wrongKind => "A value is of a kind that the operation cannot take."
  | noOperation => "A value lacks the operation asked of it."
  | badValue => "A value is out of bounds."
  | isDirectory => "A file was expected, but there is a directory."
  | systemRefused => "The system refused."
  | invalidFields _ => faultListMark
  | unknownName name => name

/-- The field faults that a cause carries. -/
def faults : Error → List FieldFault
  | invalidStore _ fs | invalidConfiguration fs | invalidFields fs => fs
  | _ => []

end Error

end WideColumn
