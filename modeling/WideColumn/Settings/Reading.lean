import WideColumn.Document.Reader
import WideColumn.Settings.Basic

/-!
# Configurations from documents

A configuration document is an object with a schema name and a list of store
entries. Entries are checked one after the other, and of an entry first that it
names its store and the way to reach it, then that way, then the host, then all
fields. The first entry that will not do is the one that is told of; a schema
name that is no text is told of last.
-/

namespace WideColumn

namespace StoreSettings

/-- The entry of a field, where an absent one counts as missing. -/
def entry (entries : List (Value × Value)) (key : String) : Value :=
  (Value.field? key entries).getD .null

/-- The fields that an entry of the document gives. -/
def fieldsOf (id : Value) (entries : List (Value × Value)) : StoreFields :=
  ⟨id, entry entries "host", entry entries "port", entry entries "table-prefix",
    entry entries "timeout-millis"⟩

/-- The settings that the bindings of a store entry give. -/
def ofEntries (entries : List (Value × Value)) : Except Error StoreSettings :=
  match Value.field? "store-id" entries, Value.field? "api" entries with
  | none, _ => .error (.storeEntryMissing "store-id")
  | some _, none => .error (.storeEntryMissing "api")
  | some id, some way =>
    match Interface.ofValue? way with
    | none => .error (.unknownInterface way)
    | some interface =>
      if interface = .server ∧ (entry entries "host").isVoid = true then .error (.hostMissing id)
      else
        match ofFields interface (fieldsOf id entries) with
        | .ok s => .ok s
        | .error faults => .error (.invalidStore id faults)

/-- The settings that a store entry gives; only an object has entries. -/
def ofDocument : Value → Except Error StoreSettings
  | .mapping entries => ofEntries entries
  | _ => .error .noOperation

/-- The settings that store entries give; the first that will not do is refused. -/
def allOfDocuments : List Value → Except Error (List StoreSettings)
  | [] => .ok []
  | v :: rest =>
    match ofDocument v with
    | .error e => .error e
    | .ok s =>
      match allOfDocuments rest with
      | .error e => .error e
      | .ok ss => .ok (s :: ss)

end StoreSettings

namespace Configuration

/-- The items of a value that can be gone through one by one. -/
def itemsOf : Value → Except Error (List Value)
  | .list items => .ok items
  | .mapping entries => .ok (entries.map Prod.fst)
  | .text s => .ok (s.toList.map fun c => .text (String.ofList [c]))
  | .bytes b => .ok (b.toList.map fun x => .int x.toNat)
  | _ => .error .wrongKind

/-- The configuration of a schema name of any kind and checked stores. -/
def ofParts (schemaName : Value) (stores : List StoreSettings) : Except Error Configuration :=
  match FieldCheck.text "schema_name" schemaName with
  | .ok name => .ok ⟨name, stores⟩
  | .error f => .error (.invalidConfiguration [f])

/-- The configuration that the bindings of a document give. -/
def ofEntries (entries : List (Value × Value)) : Except Error Configuration :=
  match Value.field? "schema-name" entries, Value.field? "stores" entries with
  | none, _ => .error (.entryMissing "schema-name")
  | some _, none => .error (.entryMissing "stores")
  | some schemaName, some stores =>
    match itemsOf stores with
    | .error e => .error e
    | .ok items =>
      match StoreSettings.allOfDocuments items with
      | .error e => .error e
      | .ok ss => ofParts schemaName ss

/-- The configuration that a document gives; only an object has entries. -/
def ofDocument : Value → Except Error Configuration
  | .mapping entries => ofEntries entries
  | _ => .error .noOperation

/-- The configuration in the text of a document; `path` is told when the text is no document. -/
def ofText (path : String) (text : String) : Except Error Configuration :=
  match Document.read text with
  | .ok v => ofDocument v
  | .error (.fault f) => .error (.invalidDocument path f)
  | .error .hugeInteger => .error .badValue

/-- The configuration in the bytes of a file. -/
def ofBytes (path : String) (contents : Bytes) : Except Error Configuration :=
  match contents.text? with
  | some text => ofText path text
  | none => .error .undecodable

end Configuration

end WideColumn
