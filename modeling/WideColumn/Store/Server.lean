import WideColumn.Collections.OrderedMap
import WideColumn.Operation
import WideColumn.Text.Bytes

/-!
# Column servers

A server that keeps tables of rows of bytes. It records every call it receives,
in order. A table made again under the same name takes the place of the old one
and starts empty. Names come back as texts or as their bytes, and family names
may come back with a suffix, as servers differ in both.
-/

namespace WideColumn

/-- What a connection is asked for with. -/
structure ConnectSettings where
  /-- The host of the server. -/
  host : String
  /-- The port, unless it is the usual one. -/
  port : Option Int
  /-- What the server puts before all table names, if anything. -/
  tablePrefix : Option String
  /-- How long to wait for an answer, if not for ever. -/
  timeout : Option Int
  deriving DecidableEq, Repr

/-- A call that a server has received. -/
inductive Call where
  /-- A connection was asked for, with these settings. -/
  | connect (settings : ConnectSettings)
  /-- A table was made with these families. -/
  | createTable (table : String) (families : List String)
  /-- A table was dropped; the flag says that it was taken out of service first. -/
  | deleteTable (table : String) (disable : Bool)
  /-- The table names were asked for. -/
  | tables
  /-- The families of a table were asked for. -/
  | families (table : String)
  /-- Cells were put into a row. -/
  | put (table : String) (row : Bytes) (cells : List (Bytes × Bytes))
  /-- A row was asked for. -/
  | row (table : String) (row : Bytes)
  /-- A row was dropped. -/
  | delete (table : String) (row : Bytes)
  /-- The connection was closed. -/
  | close
  deriving DecidableEq

/-- A name as a server spells it. -/
inductive WireName where
  /-- The UTF-8 form of the name. -/
  | bytes (b : Bytes)
  /-- The name itself. -/
  | text (s : String)
  deriving DecidableEq

/-- How a server spells the names that it gives back. -/
inductive NameSpelling where
  /-- As bytes. -/
  | bytes
  /-- As texts. -/
  | text
  deriving DecidableEq, Repr

/-- Spell a name. -/
def NameSpelling.spell : NameSpelling → String → WireName
  | bytes, s => .bytes (.ofText s)
  | text, s => .text s

/-- The name behind a spelling. -/
def WireName.decode : WireName → Except Error String
  | .bytes b =>
    match b.text? with
    | some s => .ok s
    | none => .error .undecodable
  | .text s => .ok s

/-- Every spelling is read back as the name. -/
@[simp] theorem WireName.decode_spell (p : NameSpelling) (s : String) :
    (p.spell s).decode = .ok s := by
  cases p <;> simp [NameSpelling.spell, decode]

/-- A row of a server: values under joined names, all of them bytes. -/
abbrev ServerRow := OrderedMap Bytes Bytes

/-- A table of a server. -/
structure ServerTable where
  /-- The families, in the order in which they were given. -/
  families : List String
  /-- The rows under their keys. -/
  rows : OrderedMap Bytes ServerRow

/-- A column server. -/
structure Server where
  /-- How names are spelled. -/
  spelling : NameSpelling
  /-- What follows a family name that is given back. -/
  suffix : String
  /-- Connections are refused. -/
  refuses : Bool
  /-- The tables, in the order in which their names first came. -/
  tables : OrderedMap String ServerTable
  /-- The calls received, oldest first. -/
  calls : List Call

namespace Server

/-- A server with the given habits and tables, none of which has rows. -/
def withTables (spelling : NameSpelling) (suffix : String) (refuses : Bool)
    (tables : List (String × List String)) : Server :=
  ⟨spelling, suffix, refuses, OrderedMap.ofList (tables.map fun t => (t.1, ⟨t.2, ∅⟩)), []⟩

instance : Inhabited Server := ⟨withTables .bytes "" false []⟩

/-- Note a call. -/
def record (c : Call) (s : Server) : Server := { s with calls := s.calls ++ [c] }

/-- Forget the calls received so far. -/
def forgetCalls (s : Server) : Server := { s with calls := [] }

/-- Ask for a connection. -/
def connect (settings : ConnectSettings) : Operation Server Unit := fun s =>
  (if s.refuses then .error .systemRefused else .ok (), s.record (.connect settings))

/-- Close the connection. -/
def close : Operation Server Unit := Operation.change (record .close)

/-- Make a table, in place of one of that name. -/
def createTable (table : String) (families : List String) : Operation Server Unit :=
  Operation.change fun s =>
    { s.record (.createTable table families) with
      tables := s.tables.insert table ⟨families, ∅⟩ }

/-- Drop a table. -/
def deleteTable (table : String) (disable : Bool) : Operation Server Unit := fun s =>
  let s' := s.record (.deleteTable table disable)
  if s.tables.contains table then (.ok (), { s' with tables := s.tables.erase table })
  else (.error .missingKey, s')

/-- Find a table; this is no call. -/
def findTable (table : String) : Operation Server ServerTable := fun s =>
  match s.tables.get? table with
  | some t => (.ok t, s)
  | none => (.error .missingKey, s)

/-- The names of all tables. -/
def tableNames : Operation Server (List WireName) := fun s =>
  (.ok (s.tables.keys.map s.spelling.spell), s.record .tables)

/-- The families of a table that has been found. -/
def familyNames (table : String) (t : ServerTable) : Operation Server (List WireName) := fun s =>
  (.ok (t.families.map fun f => s.spelling.spell (f ++ s.suffix)), s.record (.families table))

/-- The table with bytes merged into one of its rows. -/
def mergeInto (t : ServerTable) (row : Bytes) (cells : List (Bytes × Bytes)) :
    ServerTable :=
  { t with rows := t.rows.insert row (((t.rows.get? row).getD ∅).insertAll cells) }

/-- Merge bytes into a row of a table without any call. -/
def mergeRow (table : String) (row : Bytes) (cells : List (Bytes × Bytes)) :
    Operation Server Unit := do
  let t ← findTable table
  Operation.change fun s => { s with tables := s.tables.insert table (mergeInto t row cells) }

/-- Put cells into a row of a table that has been found. -/
def put (table : String) (t : ServerTable) (row : Bytes)
    (cells : List (Bytes × Bytes)) : Operation Server Unit :=
  Operation.change fun s =>
    { s.record (.put table row cells) with tables := s.tables.insert table (mergeInto t row cells) }

/-- A row of a table that has been found; an absent row is empty. -/
def row (table : String) (t : ServerTable) (key : Bytes) : Operation Server ServerRow :=
  fun s => (.ok ((t.rows.get? key).getD ∅), s.record (.row table key))

/-- Drop a row of a table that has been found, if it is there. -/
def delete (table : String) (t : ServerTable) (key : Bytes) : Operation Server Unit :=
  Operation.change fun s =>
    { s.record (.delete table key) with
      tables := s.tables.insert table { t with rows := t.rows.erase key } }

end Server

end WideColumn
