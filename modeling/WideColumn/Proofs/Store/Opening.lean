import WideColumn.Proofs.Store.Stability
import WideColumn.Proofs.Store.Tasks
import WideColumn.Store.Opening

/-!
# Stores are closed when they were opened

A store is opened, used by a body through a client of its own, and closed. The
body may do whatever a client can be given to do, stop at any point and fail for
any cause: a server sees the connection opened first and closed last, with
neither in between, and what the body came to is handed on. If the server refuses
the connection the body never runs and nothing is closed.
-/

namespace WideColumn

open Operation

variable {α : Type}

/-- The client to which an opened store is given. -/
def clientOn (settings : StoreSettings) (store : Store) (around : Surroundings) : Client :=
  ⟨store, around.keysUsed,
    around.log ++ [⟨.debug, "Opened connection to " ++ settings.display ++ "."⟩]⟩

/-- What lasts when a client is done with its store. -/
def clientDone (settings : StoreSettings) (server : Server) (c : Client) : Surroundings :=
  ⟨server, c.keysUsed, c.log ++ [⟨.debug, "Closed connection to " ++ settings.display ++ "."⟩]⟩

/-- The server behind a connection that was just opened. -/
def Server.connected (s : Server) (settings : StoreSettings) : Server :=
  s.record (.connect settings.connectSettings)

section WithStore

variable {settings : StoreSettings} {body : Operation Client α} {around : Surroundings}
variable {c : Client} {r : Except Error α}

/-- A server that refuses is asked, and nothing is done. -/
theorem withStore_of_refused (hserver : settings.interface = .server)
    (hrefuses : around.server.refuses = true) :
    withStore settings body around =
      ⟨.error .systemRefused, none, { around with server := around.server.connected settings }⟩ := by
  simp only [withStore, StoreSettings.openStore, hserver, Server.connect, hrefuses, if_true]
  rfl

/-- A server that does not refuse is used through a client of its own, and told at the end. -/
theorem withStore_of_connected (hserver : settings.interface = .server)
    (hrefuses : around.server.refuses = false) {s : Server}
    (hbody : body (clientOn settings (.gateway (around.server.connected settings)) around) = (r, c))
    (hc : c.store = .gateway s) :
    withStore settings body around =
      ⟨r, some (.gateway (s.record .close)), clientDone settings (s.record .close) c⟩ := by
  have hopened : settings.openStore around.server =
      (.ok (.gateway (around.server.connected settings)), around.server.connected settings) := by
    simp only [StoreSettings.openStore, hserver, Server.connect, hrefuses]
    rfl
  have hclosed : c.closeStore = { c with store := .gateway (s.record .close) } := by
    simp only [Client.closeStore, Client.onStore, within, hc]
    rfl
  simp only [clientOn] at hbody
  simp only [withStore, hopened, hbody, hclosed, Store.serverAfter, clientDone]

/-- A store in memory is closed as well, and the server is left alone. -/
theorem withStore_of_memory (hmemory : settings.interface = .memory) {m : Memory}
    (hbody : body (clientOn settings (.memory .empty) around) = (r, c))
    (hc : c.store = .memory m) :
    withStore settings body around =
      ⟨r, some (.memory { m with closed := true }), clientDone settings around.server c⟩ := by
  have hopened : settings.openStore around.server = (.ok (.memory .empty), around.server) := by
    simp only [StoreSettings.openStore, hmemory]
  have hclosed : c.closeStore = { c with store := .memory { m with closed := true } } := by
    simp only [Client.closeStore, Client.onStore, within, hc]
    rfl
  simp only [clientOn] at hbody
  simp only [withStore, hopened, hbody, hclosed, Store.serverAfter, clientDone]

end WithStore

/-- Whether a memory store has been closed. -/
def Store.closed? : Store → Option Bool
  | memory m => some m.closed
  | gateway _ => none

namespace Store

/-- A store that says whether it is closed is in memory. -/
theorem exists_memory_of_closed? {st : Store} {b : Bool} (h : st.closed? = some b) :
    ∃ m, st = .memory m ∧ m.closed = b := by
  cases st with
  | memory m => exact ⟨m, rfl, Option.some.inj h⟩
  | gateway s => cases h

theorem leaves_closed_onEither {a : Operation Memory α} (ha : Leaves Memory.closed a)
    (b : Operation Server α) : Leaves closed? (onEither a b) := by
  intro st
  cases st with
  | memory m => exact congrArg some (ha m)
  | gateway s => rfl

end Store

namespace Memory

/-- Making a table does not close the store. -/
theorem leaves_closed_createTable (table : String) (fs : NameSet) :
    Leaves closed (createTable table fs) :=
  (leaves_tableExists table).every.bind fun _ => .ite (.fail _) fun _ => rfl

theorem leaves_closed_deleteTable (table : String) : Leaves closed (deleteTable table) := by
  have hfamilies : Leaves closed (forgetFamilies table) :=
    (leaves_declaredFamilies table).every.bind fun _ _ => rfl
  have hrows : Leaves closed (forgetRows table) :=
    (leaves_tableRows table).every.bind fun _ _ => rfl
  exact (leaves_tableRows table).every.bind fun _ => hfamilies.bind fun _ => hrows

theorem leaves_closed_put (table key : String) (cells : Cells) :
    Leaves closed (put table key cells) :=
  (leaves_tableRows table).every.bind fun _ => (leaves_declaredFamilies table).every.bind fun _ =>
    .ite (fun _ => rfl) (.fail _)

theorem leaves_closed_delete (table key : String) : Leaves closed (delete table key) :=
  (leaves_tableRows table).every.bind fun _ _ => rfl

end Memory

namespace Store

variable {Q : Store → Prop}

/-- The predicate survives all work on a store, short of closing it. -/
structure WorkStable (Q : Store → Prop) : Prop extends RowStable Q where
  /-- Making a table. -/
  createTable : ∀ table fs, Keeps Q (createTable table fs)
  /-- Dropping a table. -/
  deleteTable : ∀ table, Keeps Q (deleteTable table)

/-- A store is not closed by work on it. -/
theorem workStable_closed (x : Option Bool) : WorkStable fun st => st.closed? = x where
  tableExists table := .of_leaves (leaves_closed_onEither
    (Memory.leaves_tableExists table).every _) (· = x)
  tableFamilies table := .of_leaves (leaves_closed_onEither
    (Memory.leaves_tableFamilies table).every _) (· = x)
  put table key cells := .of_leaves (leaves_closed_onEither
    (Memory.leaves_closed_put table key cells) _) (· = x)
  get table key := .of_leaves (leaves_closed_onEither (Memory.leaves_get table key).every _) (· = x)
  delete table key := .of_leaves (leaves_closed_onEither
    (Memory.leaves_closed_delete table key) _) (· = x)
  forgetCalls st hst := by
    cases st <;> exact hst
  createTable table fs := .of_leaves (leaves_closed_onEither
    (Memory.leaves_closed_createTable table fs) _) (· = x)
  deleteTable table := .of_leaves (leaves_closed_onEither
    (Memory.leaves_closed_deleteTable table) _) (· = x)

end Store

/-- What survives all work on a store survives a task of its client. -/
theorem ClientTask.keeps_run {Q : Store → Prop} (hQ : Store.WorkStable Q) (t : ClientTask) :
    Keeps (fun c => Q c.store) t.run := by
  have hrow := hQ.toRowStable
  cases t with
  | call call =>
    cases call with
    | createTable table families =>
      exact (Client.keeps_createTable (fun n fs _ => hQ.createTable n fs) families).bind
        fun _ => .pure _
    | dropTable table =>
      exact (Client.keeps_dropTable hrow (hQ.deleteTable table)).bind fun _ => .pure _
    | putRow r => exact (Client.keeps_putRow hrow r).bind fun _ => .pure _
    | getRow table key =>
      exact ((Client.keeps_requireTable hrow table).bind fun _ =>
        Client.keeps_onStore (hQ.get table key)).bind fun _ => .pure _
    | deleteRow table key => exact (Client.keeps_deleteRow hrow table key).bind fun _ => .pure _
    | tableExists table =>
      exact (Client.keeps_onStore (hQ.tableExists table)).bind fun _ => .pure _
    | tableFamilies table =>
      exact ((Client.keeps_requireTable hrow table).bind fun _ =>
        Client.keeps_onStore (hQ.tableFamilies table)).bind fun _ => .pure _
  | insertRow r => exact (Client.keeps_insertRow hrow r).bind fun _ => .pure _
  | deleteById t id => exact (Client.keeps_deleteById hrow t id).bind fun _ => .pure _
  | dropFrom s table =>
    exact (Client.keeps_dropFrom hrow (hQ.deleteTable table) s).bind fun _ => .pure _
  | execute r s =>
    exact (TableRequest.keeps_execute (fun n fs _ => hQ.createTable n fs) s).bind fun _ => .pure _

/-- What the user of an open store does: give its client a task and go on with the answer or the
cause of failure, or end at any point, with a value or for any cause. -/
inductive ClientScript (α : Type) where
  /-- End. -/
  | finish (r : Except Error α)
  /-- Give the client a task and go on. -/
  | ask (t : ClientTask) (next : Except Error Answer → ClientScript α)

namespace ClientScript

/-- Do what a script says. -/
def run : ClientScript α → Operation Client α
  | finish r => Operation.lift r
  | ask t next => fun c => run (next (t.run c).1) (t.run c).2

/-- Whatever a script does, the server gets proper calls; by induction on the script. -/
theorem orderly_run (script : ClientScript α) :
    Client.Orderly Client.Anywhere (fun _ _ => True) script.run := by
  induction script with
  | finish r => exact .of_leaves (.lift r) fun _ _ _ => trivial
  | ask t next ih =>
    intro c s hc _
    obtain ⟨calls, hstore, hproper, -⟩ := t.orderly_run c s hc trivial
    obtain ⟨more, hstore', hproper', -⟩ := ih (t.run c).1 (t.run c).2 _ hstore trivial
    refine ⟨calls ++ more, ?_, hproper.append hproper', fun _ _ => trivial⟩
    rw [Server.replay_append]
    exact hstore'

/-- A script keeps what survives all work on a store. -/
theorem keeps_run {Q : Store → Prop} (hQ : Store.WorkStable Q) (script : ClientScript α) :
    Keeps (fun c => Q c.store) script.run := by
  induction script with
  | finish r => exact .lift r
  | ask t next ih => exact fun c hc => ih (t.run c).1 (t.run c).2 (t.keeps_run hQ c hc)

end ClientScript

/-- What a use comes to when a body runs between the opening and the closing of its store, and not
at all if the store cannot be opened. -/
inductive Bracketed (settings : StoreSettings) (body : Operation Client α) (around : Surroundings) :
    Use α → Prop where
  /-- The server refuses the connection. It has been asked for it and nothing else, and neither is
  there a store nor has the body run. -/
  | refused (hserver : settings.interface = .server) (hrefuses : around.server.refuses = true) :
    Bracketed settings body around
      ⟨.error .systemRefused, none, { around with server := around.server.connected settings }⟩
  /-- The server accepts the connection. The body runs on it and neither opens nor closes one; what
  it came to is handed on, after the one call that closes the connection. -/
  | connected {r : Except Error α} {c : Client} {s : Server} {calls : List Call}
    (hserver : settings.interface = .server) (hrefuses : around.server.refuses = false)
    (hbody : body (clientOn settings (.gateway (around.server.connected settings)) around) = (r, c))
    (hstore : c.store = .gateway s)
    (hcalls : s.calls = around.server.calls ++ .connect settings.connectSettings :: calls)
    (hunframed : ∀ call ∈ calls, call.framing = false) :
    Bracketed settings body around
      ⟨r, some (.gateway (s.record .close)), clientDone settings (s.record .close) c⟩
  /-- The store is in memory. The body runs on it and does not close it; what it came to is handed
  on, the store is closed, and the server is left alone. -/
  | memory {r : Except Error α} {c : Client} {m : Memory} (hmemory : settings.interface = .memory)
    (hbody : body (clientOn settings (.memory .empty) around) = (r, c))
    (hstore : c.store = .memory m) (hopen : m.closed = false) :
    Bracketed settings body around
      ⟨r, some (.memory { m with closed := true }), clientDone settings around.server c⟩

section Use

variable {settings : StoreSettings} {body : Operation Client α} {around : Surroundings}
variable {E : List Call → Error → Prop}

variable (around) in
/-- An orderly body on a connection: the server is left as its calls leave it, and told at the end. -/
theorem withStore_of_orderly (hbody : Client.Orderly Client.Anywhere E body)
    (hserver : settings.interface = .server) (hrefuses : around.server.refuses = false) :
    ∃ r c calls,
      body (clientOn settings (.gateway (around.server.connected settings)) around) = (r, c) ∧
      c.store = .gateway ((around.server.connected settings).replay calls) ∧
      (around.server.connected settings).ProperFrom calls ∧ (∀ e, r = .error e → E calls e) ∧
      withStore settings body around =
        ⟨r, some (.gateway (((around.server.connected settings).replay calls).record .close)),
          clientDone settings (((around.server.connected settings).replay calls).record .close) c⟩ := by
  obtain ⟨calls, hstore, hproper, hcause⟩ := hbody _ (around.server.connected settings)
    (show (clientOn settings _ around).store = _ from rfl) trivial
  rcases hr : body (clientOn settings (.gateway (around.server.connected settings)) around)
    with ⟨r, c⟩
  rw [hr] at hstore hcause
  exact ⟨r, c, calls, rfl, hstore, hproper, hcause, withStore_of_connected hserver hrefuses hr hstore⟩

/-- A store that is used by an orderly body is opened and closed as it should be, if the body keeps
a memory store open. -/
theorem bracketed_of_orderly (hbody : Client.Orderly Client.Anywhere E body)
    (hopen : Keeps (fun c => c.store.closed? = some false) body) :
    Bracketed settings body around (withStore settings body around) := by
  cases hinterface : settings.interface with
  | memory =>
    have hkept := hopen (clientOn settings (.memory .empty) around) rfl
    rcases hr : body (clientOn settings (.memory .empty) around) with ⟨r, c⟩
    rw [hr] at hkept
    obtain ⟨m, hstore, hm⟩ := Store.exists_memory_of_closed? hkept
    rw [withStore_of_memory hinterface hr hstore]
    exact .memory hinterface hr hstore hm
  | server =>
    cases hrefuses : around.server.refuses with
    | true =>
      rw [withStore_of_refused hinterface hrefuses]
      exact .refused hinterface hrefuses
    | false =>
      obtain ⟨r, c, calls, hr, hstore, hproper, -, huse⟩ :=
        withStore_of_orderly around hbody hinterface hrefuses
      rw [huse]
      refine .connected hinterface hrefuses hr hstore ?_ hproper.unframed
      rw [Server.calls_replay]
      exact List.append_assoc ..

/-- However a store is used, it is opened and closed as it should be. -/
theorem ClientScript.bracketed (script : ClientScript α) :
    Bracketed settings script.run around (withStore settings script.run around) :=
  bracketed_of_orderly script.orderly_run (script.keeps_run (Store.workStable_closed (some false)))

end Use

end WideColumn
