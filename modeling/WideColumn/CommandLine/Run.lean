import WideColumn.CommandLine.Request
import WideColumn.Settings.Loading
import WideColumn.Store.Opening
import WideColumn.Store.Update
import WideColumn.TableRequest

/-!
# Runs of the program

One run of the program: read the command line, load the configuration, open the
store, do what is asked and close the store. A run ends with an exit code, the
lines to print and the log; a run that fails prints nothing and logs one error.
-/

namespace WideColumn.CommandLine

/-- What a run finds and leaves behind. -/
structure World where
  /-- The files. -/
  tree : FileTree
  /-- The configuration that was loaded last. -/
  cache : Cache
  /-- The server that stores may be opened on. -/
  server : Server

/-- How a run ends. The streams that are written to take every text. -/
inductive Outcome where
  /-- The command line stopped the run. -/
  | stopped (s : Stop)
  /-- What was asked for is done: the lines to print and the log. -/
  | done (lines : List String) (log : List LogRecord)
  /-- What was asked for failed: the cause and the log before it. -/
  | failed (e : Error) (log : List LogRecord)

namespace Outcome

/-- The record that ends the log of a run that did what was asked. -/
def doneRecord : LogRecord := ⟨.info, "Done."⟩

/-- The exit code. -/
def exitCode : Outcome → Nat
  | stopped s => s.exitCode
  | done _ _ => 0
  | failed _ _ => 1

/-- The lines to print. -/
def lines : Outcome → List String
  | done ls _ => ls
  | _ => []

/-- The record weighs enough to be told of a run. -/
def isTold (r : LogRecord) : Bool := r.level ≠ .debug

/-- What is told of the run. -/
def log : Outcome → List LogRecord
  | stopped _ => []
  | done _ l => l.filter isTold ++ [doneRecord]
  | failed e l => l.filter isTold ++ [⟨.error, e.message⟩]

end Outcome

/-- Declare the columns of several names. -/
def declareAll (r : TableRequest) : List String → Except Error TableRequest
  | [] => .ok r
  | name :: rest =>
    match r.withColumn name none with
    | .ok r => declareAll r rest
    | .error e => .error e

/-- Make a table for a new schema. -/
def createTable (schemaName table : String) (families columns : List String) :
    Operation Client (List String) := do
  let r ← Operation.lift (TableRequest.new (some table) (.names families))
  let r ← Operation.lift (declareAll r columns)
  let _ ← r.execute (LiveSchema.ofTables schemaName [])
  return ["Created " ++ table ++ "."]

/-- Drop a table. -/
def dropTable (schemaName table : String) : Operation Client (List String) := do
  let _ ← Client.dropFrom (LiveSchema.ofTables schemaName []) table
  return ["Dropped " ++ table ++ "."]

/-- The names of the families of a table, in increasing order. -/
def listFamilies (table : String) : Operation Client (List String) := do
  return (← Client.tableFamilies table).names

/-- Do what is asked with an open store; the result is the lines to print. -/
def Request.body (schemaName : String) : Request → Operation Client (List String)
  | createTable _ table families columns =>
    CommandLine.createTable schemaName table families columns
  | dropTable _ table => CommandLine.dropTable schemaName table
  | listFamilies _ table => CommandLine.listFamilies table

/-- The settings of the store that is asked for. Of a memory store, which starts empty, nothing can
be dropped or listed. -/
def Request.settings (r : Request) (c : Configuration) : Except Error StoreSettings :=
  match c.store? r.store with
  | none => .error (.unknownStore r.store)
  | some s =>
    if s.interface = .memory ∧ r.isCreate = false then .error (.memoryStoreIsEmpty r.store)
    else .ok s

/-- Do what is asked under a configuration. -/
def carryOut (r : Request) (c : Configuration) (server : Server) : Outcome × Server :=
  match r.settings c with
  | .error e => (.failed e [], server)
  | .ok s =>
    let use := withStore s (r.body c.schemaName) ⟨server, 0, []⟩
    match use.result with
    | .ok lines => (.done lines use.surroundings.log, use.surroundings.server)
    | .error e => (.failed e use.surroundings.log, use.surroundings.server)

/-- The path of the configuration of an invocation: the one that is named, or the standard one. -/
def Invocation.source (i : Invocation) (tree : FileTree) : Path :=
  match i.config with
  | some (some p) => p
  | _ => tree.standard

/-- Do what an invocation asks for. -/
def runInvocation (i : Invocation) (w : World) : Outcome × World :=
  match load w.tree (i.source w.tree) w.cache with
  | (.error e, cache) => (.failed e [], { w with cache := cache })
  | (.ok c, cache) =>
    match i.request with
    | .error e => (.failed e [], { w with cache := cache })
    | .ok r =>
      let (outcome, server) := carryOut r c w.server
      (outcome, { w with cache := cache, server := server })

/-- One run of the program. -/
def run (argv : List String) (w : World) : Outcome × World :=
  match Invocation.ofArguments argv with
  | .error s => (.stopped s, w)
  | .ok i => runInvocation i w

end WideColumn.CommandLine
