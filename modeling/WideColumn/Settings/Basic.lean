import WideColumn.FieldCheck
import WideColumn.Value.Mapping

/-!
# Settings

The settings of one store and the configuration that names several of them. A
store is reached in one of two ways, in memory or through a server; a store of
the second kind needs a host in a configuration document.
-/

namespace WideColumn

/-- How a store is reached. -/
inductive Interface where
  /-- Through a column server. -/
  | server
  /-- In memory. -/
  | memory
  deriving DecidableEq, Repr

namespace Interface

/-- The word for a way to reach a store. -/
def word : Interface → String
  | server => "happybase"
  | memory => "memory"

/-- How a way to reach a store is shown inside a record. -/
def display : Interface → String
  | server => "API.HAPPYBASE"
  | memory => "API.MEMORY"

/-- The way that a value is the word for. -/
def ofValue? : Value → Option Interface
  | .text s => if s = server.word then some server else if s = memory.word then some memory else none
  | _ => none

@[simp] theorem ofValue?_word (i : Interface) : ofValue? (.text i.word) = some i := by
  cases i <;> decide

end Interface

/-- The settings of a store. -/
structure StoreSettings where
  /-- The name of the store. -/
  id : String
  /-- How it is reached. -/
  interface : Interface
  /-- The host of its server. -/
  host : Option String
  /-- The port of its server. -/
  port : Option Positive
  /-- What its server puts before all table names. -/
  tablePrefix : Option String
  /-- How many milliseconds to wait for an answer. -/
  timeout : Option Positive
  deriving DecidableEq

/-- The fields of a store's settings, as values of any kind. -/
structure StoreFields where
  /-- The name of the store. -/
  id : Value
  /-- The host of its server. -/
  host : Value
  /-- The port of its server. -/
  port : Value
  /-- What its server puts before all table names. -/
  tablePrefix : Value
  /-- How many milliseconds to wait for an answer. -/
  timeout : Value

namespace StoreSettings

/-- The settings that checked fields make, or the faults of all fields, in order. -/
def ofFields (interface : Interface) (f : StoreFields) : Except (List FieldFault) StoreSettings :=
  let id := FieldCheck.text "store_id" f.id
  let host := FieldCheck.optionalText "host" f.host
  let port := FieldCheck.optionalPositive "port" f.port
  let tablePrefix := FieldCheck.optionalText "table_prefix" f.tablePrefix
  let timeout := FieldCheck.optionalPositive "timeout_millis" f.timeout
  match id, host, port, tablePrefix, timeout with
  | .ok id, .ok host, .ok port, .ok tablePrefix, .ok timeout =>
    .ok ⟨id, interface, host, port, tablePrefix, timeout⟩
  | id, host, port, tablePrefix, timeout =>
    .error (FieldCheck.faults id ++ FieldCheck.faults host ++ FieldCheck.faults port ++
      FieldCheck.faults tablePrefix ++ FieldCheck.faults timeout)

/-- Settings of values of any kind: the way to reach the store first, then the fields. -/
def ofValues (interface : Value) (f : StoreFields) : Except Error StoreSettings :=
  match Interface.ofValue? interface with
  | none => .error .badValue
  | some i =>
    match ofFields i f with
    | .ok s => .ok s
    | .error faults => .error (.invalidFields faults)

/-- How the settings of a store are shown. -/
def display (s : StoreSettings) : String :=
  "StoreConfig(store_id=" ++ Text.quoteText s.id ++ ", api=" ++ s.interface.display ++ ")"

end StoreSettings

/-- A configuration: the name for schemas and the stores, in order. -/
structure Configuration where
  /-- The name for schemas. -/
  schemaName : String
  /-- The settings of the stores. -/
  stores : List StoreSettings
  deriving DecidableEq

namespace Configuration

/-- The first store of a name. -/
def store? (c : Configuration) (id : String) : Option StoreSettings :=
  c.stores.find? fun s => s.id = id

/-- Parts between parentheses, where a single part is followed by a comma. -/
def tupleText : List String → String
  | [] => "()"
  | [part] => "(" ++ part ++ ",)"
  | parts => "(" ++ Value.commaSeparated parts ++ ")"

/-- How a configuration is shown. -/
def display (c : Configuration) : String :=
  "Config(schema_name=" ++ Text.quoteText c.schemaName ++ ", stores=" ++
    tupleText (c.stores.map StoreSettings.display) ++ ")"

end Configuration

end WideColumn
