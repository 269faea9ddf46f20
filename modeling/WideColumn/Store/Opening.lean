import WideColumn.Settings.Basic
import WideColumn.Store.Client

/-!
# Opening and closing stores

A store is opened from its settings, used, and closed again whatever happens in
between. If it cannot be opened nothing is used and nothing is closed. A server
lasts longer than the stores that are opened on it.
-/

namespace WideColumn

/-- What lasts longer than an open store: the server, the row keys handed out and the log. -/
structure Surroundings where
  /-- The server that stores may be opened on. -/
  server : Server
  /-- How many row keys have been handed out. -/
  keysUsed : Nat
  /-- The log, oldest record first. -/
  log : List LogRecord

namespace StoreSettings

/-- The host that a connection asks for when the settings name none. -/
def usualHost : String := "localhost"

/-- What a connection is asked for with; an empty host counts as none. -/
def connectSettings (s : StoreSettings) : ConnectSettings where
  host := match s.host with
    | some h => if h = "" then usualHost else h
    | none => usualHost
  port := s.port.map fun n => (n.val : Int)
  tablePrefix := s.tablePrefix
  timeout := s.timeout.map fun n => (n.val : Int)

/-- Open the store of the settings. A memory store starts empty. -/
def openStore (s : StoreSettings) : Operation Server Store := fun server =>
  match s.interface with
  | .memory => (.ok (.memory Memory.empty), server)
  | .server =>
    match Server.connect s.connectSettings server with
    | (.ok _, server) => (.ok (.gateway server), server)
    | (.error e, server) => (.error e, server)

end StoreSettings

namespace Store

/-- The server as it is after the store was used. -/
def serverAfter (server : Server) : Store → Server
  | memory _ => server
  | gateway s => s

end Store

/-- What became of a store that was to be opened, used and closed. -/
structure Use (α : Type) where
  /-- The result of the use, or why the store could not be opened. -/
  result : Except Error α
  /-- The store after it was closed, if it was opened. -/
  store : Option Store
  /-- What lasts longer. -/
  surroundings : Surroundings

/-- Close the store of a client. -/
def Client.closeStore (c : Client) : Client := (Client.onStore Store.close c).2

/-- Open a store, use it through a client, and close it. -/
def withStore {α : Type} (settings : StoreSettings) (body : Operation Client α)
    (around : Surroundings) : Use α :=
  match settings.openStore around.server with
  | (.error e, server) => ⟨.error e, none, { around with server := server }⟩
  | (.ok store, server) =>
    let opened : LogRecord := ⟨.debug, "Opened connection to " ++ settings.display ++ "."⟩
    let closed : LogRecord := ⟨.debug, "Closed connection to " ++ settings.display ++ "."⟩
    let (result, used) := body ⟨store, around.keysUsed, around.log ++ [opened]⟩
    let after := used.closeStore
    ⟨result, some after.store,
      ⟨after.store.serverAfter server, after.keysUsed, after.log ++ [closed]⟩⟩

end WideColumn
