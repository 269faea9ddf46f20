import WideColumn.Store.Gateway
import WideColumn.Store.Memory

/-!
# Stores

A store is a memory store or a gateway to a column server. Both answer the same
operations; what they have in common is stated here once.
-/

namespace WideColumn

/-- A store of either kind. -/
inductive Store where
  /-- A store in memory. -/
  | memory (m : Memory)
  /-- A gateway to a column server. -/
  | gateway (s : Server)

namespace Store

instance : Inhabited Store := ⟨memory default⟩

/-- The calls that a server behind the store has received. -/
def calls : Store → List Call
  | memory _ => []
  | gateway s => s.calls

/-- Forget the calls received so far. -/
def forgetCalls : Store → Store
  | memory m => memory m
  | gateway s => gateway s.forgetCalls

/-- Carry out the operation meant for the kind of store at hand. -/
def onEither {α : Type} (inMemory : Operation Memory α) (onServer : Operation Server α) :
    Operation Store α
  | memory m =>
    let (r, m') := inMemory m
    (r, memory m')
  | gateway s =>
    let (r, s') := onServer s
    (r, gateway s')

/-- Make a table. -/
def createTable (table : String) (families : NameSet) : Operation Store Unit :=
  onEither (Memory.createTable table families) (Gateway.createTable table families)

/-- Drop a table with its rows. -/
def deleteTable (table : String) : Operation Store Unit :=
  onEither (Memory.deleteTable table) (Gateway.deleteTable table)

/-- The store has a table of that name. -/
def tableExists (table : String) : Operation Store Bool :=
  onEither (Memory.tableExists table) (Gateway.tableExists table)

/-- The families of a table. -/
def tableFamilies (table : String) : Operation Store NameSet :=
  onEither (Memory.tableFamilies table) (Gateway.tableFamilies table)

/-- Lay cells on top of a row. -/
def put (table key : String) (cells : Cells) : Operation Store Unit :=
  onEither (Memory.put table key cells) (Gateway.put table key cells)

/-- The cells of a row. -/
def get (table key : String) : Operation Store (Option Cells) :=
  onEither (Memory.get table key) (Gateway.get table key)

/-- Drop a row, if it is there. -/
def delete (table key : String) : Operation Store Unit :=
  onEither (Memory.delete table key) (Gateway.delete table key)

/-- Close the store. -/
def close : Operation Store Unit := onEither Memory.close Server.close

/-- Merge bytes into a row of a server past the gateway. A memory store has no such rows. -/
def mergeRow (table : String) (row : Bytes) (cells : List (Bytes × Bytes)) :
    Operation Store Unit :=
  onEither (Operation.fail .noOperation) (Server.mergeRow table row cells)

end Store

end WideColumn
