import WideColumn.Proofs.Store.Orderly
import WideColumn.Proofs.Store.Simulation

/-!
# Clients at work

A client is given one task after the other: calls of its own operations, and the
services that are built on them. Every task is orderly, so a run of tasks is, by
induction: the server is left as proper calls leave it, and no table is touched
that is not there. Who asks for one that is missing is told so.
-/

namespace WideColumn

open Operation OrderedMap

/-- The table that has to be there for a call of a client. -/
def ClientCall.needs : ClientCall → Option String
  | dropTable table | getRow table _ | deleteRow table _ | tableFamilies table => some table
  | putRow r => some r.table.name
  | createTable _ _ | tableExists _ => none

/-- What a client is given to do: a call of one of its operations, or a service. -/
inductive ClientTask where
  /-- A call. -/
  | call (c : ClientCall)
  /-- Insert a row. -/
  | insertRow (r : Row)
  /-- Delete a row by its identifier. -/
  | deleteById (t : Table) (id : Value)
  /-- Drop a table from the store and from a schema. -/
  | dropFrom (s : LiveSchema) (table : String)
  /-- Carry out a request for a table of a schema. -/
  | execute (r : TableRequest) (s : LiveSchema)

namespace ClientTask

/-- Do what a task asks for. -/
def run : ClientTask → Operation Client Answer
  | call c => c.run
  | insertRow r => return .text (← Client.insertRow r)
  | deleteById t id => do
    Client.deleteById t id
    return .nothing
  | dropFrom s table => return .schema (.live (← Client.dropFrom s table))
  | execute r s => return .table (some (← r.execute s).1)

/-- The answers to tasks in turn, whether they fail or not. -/
def answers : List ClientTask → Client → List (Except Error Answer)
  | [], _ => []
  | t :: rest, c => (t.run c).1 :: answers rest (t.run c).2

/-- The client after tasks in turn, whether they failed or not. -/
def after (c : Client) (tasks : List ClientTask) : Client :=
  tasks.foldl (fun c t => (t.run c).2) c

end ClientTask

variable {c : Client} {s : Server}

/-- Every call of a client is orderly. -/
theorem ClientCall.orderly_run (call : ClientCall) :
    Client.Orderly Client.Anywhere Error.Timely call.run := by
  cases call with
  | createTable table families => exact (Client.orderly_createTable table families).bind_pure _
  | dropTable table => exact ((Client.orderly_dropTable table).bind_pure _).timely
  | putRow r => exact ((Client.orderly_putRow r).bind_pure _).timely
  | getRow table key => exact ((Client.orderly_getRow table key).bind_pure _).timely
  | deleteRow table key => exact ((Client.orderly_deleteRow table key).bind_pure _).timely
  | tableExists table => exact ((Client.orderly_tableExists table).bind_pure _).timely
  | tableFamilies table => exact ((Client.orderly_tableFamilies table).bind_pure _).timely

/-- A call for a table that is not there is told so, and the server has only been asked for its
tables. -/
theorem ClientCall.run_of_missing {call : ClientCall} {table : String} (hc : c.store = .gateway s)
    (hneeds : call.needs = some table) (hmissing : s.tables.contains table = false) :
    call.run c =
      (.error (.noSuchTable table), { c with store := .gateway (s.record .tables) }) := by
  have hasked := Client.requireTable_of_missing hc hmissing
  cases call with
  | createTable | tableExists => cases hneeds
  | putRow r =>
    cases hneeds
    exact bind_of_error (bind_of_error hasked)
  | dropTable | getRow | deleteRow | tableFamilies =>
    cases hneeds
    exact bind_of_error (bind_of_error hasked)

namespace ClientTask

/-- Every task of a client is orderly. -/
theorem orderly_run (t : ClientTask) : Client.Orderly Client.Anywhere Error.Timely t.run := by
  cases t with
  | call c => exact c.orderly_run
  | insertRow r => exact ((Client.orderly_insertRow r).bind_pure _).timely
  | deleteById t id => exact (Client.orderly_deleteById t id).bind_pure _
  | dropFrom s table => exact ((Client.orderly_dropFrom s table).bind_pure _).timely
  | execute r s => exact (r.orderly_execute s).bind_pure _

/-- A run of tasks makes proper calls, leaves the server as these leave it, and never fails of a
look-up that found nothing; by induction on the tasks. -/
theorem exists_calls_after (tasks : List ClientTask) (hc : c.store = .gateway s) :
    ∃ calls, (after c tasks).store = .gateway (s.replay calls) ∧ s.ProperFrom calls ∧
      ∀ r ∈ answers tasks c, r ≠ .error .missingKey := by
  induction tasks generalizing c s with
  | nil => exact ⟨[], hc, trivial, fun _ h => nomatch h⟩
  | cons t rest ih =>
    obtain ⟨calls, hstore, hproper, hcause⟩ := t.orderly_run c s hc trivial
    obtain ⟨more, hstore', hproper', hanswers⟩ := ih hstore
    refine ⟨calls ++ more, ?_, hproper.append hproper', fun r hr => ?_⟩
    · rw [Server.replay_append]
      exact hstore'
    · rcases List.mem_cons.mp hr with rfl | hr
      · exact fun he => (hcause _ he).found rfl
      · exact hanswers r hr

/-- A client that is asked for something in a table that the server does not hold tells so, after
one call for the tables; no task fails of a look-up that found nothing. -/
theorem missing_tables_are_reported (s : Server) (keysUsed : Nat) (log : List LogRecord)
    (tasks : List ClientTask) :
    let c : Client := after ⟨.gateway s, keysUsed, log⟩ tasks
    ∃ calls, c.store = .gateway (s.replay calls) ∧ (s.replay calls).calls = s.calls ++ calls ∧
      (∀ r ∈ answers tasks ⟨.gateway s, keysUsed, log⟩, r ≠ .error .missingKey) ∧
      (∀ before call later table, calls = before ++ call :: later → call.needs = some table →
        (s.replay before).tables.contains table = true) ∧
      ∀ (call : ClientCall) (table : String), call.needs = some table →
        (s.replay calls).tables.contains table = false →
        call.run c = (.error (.noSuchTable table),
          { c with store := .gateway ((s.replay calls).record .tables) }) := by
  intro c
  obtain ⟨calls, hstore, hproper, hanswers⟩ :=
    exists_calls_after tasks (c := ⟨.gateway s, keysUsed, log⟩) rfl
  refine ⟨calls, hstore, s.calls_replay calls, hanswers, ?_, ?_⟩
  · rintro before call later table rfl hneeds
    exact hproper.proper_at.held table hneeds
  · intro call table hneeds hmissing
    exact call.run_of_missing hstore hneeds hmissing

/-- A table is made, dropped and then asked for a row. -/
theorem missing_tables_are_reported_after_drop :
    let s := Server.withTables .bytes ":" false [("u", ["g"])]
    let tasks : List ClientTask :=
      [.call (.createTable (some "t") (.names ["f"])), .call (.deleteRow "t" "k"),
        .call (.dropTable "t")]
    let c : Client := after ⟨.gateway s, 0, []⟩ tasks
    (ClientCall.getRow "t" "k").needs = some "t" ∧
      c.store.calls = [.createTable "t" ["f"], .tables, .delete "t" (.ofText "k"), .tables,
        .deleteTable "t" true] ∧
      ((ClientCall.getRow "t" "k").run c).1 = .error (.noSuchTable "t") ∧
      ((ClientCall.getRow "t" "k").run c).2.store.calls = c.store.calls ++ [.tables] := by
  intro s tasks c
  obtain ⟨calls, hstore, -, -, -, hreport⟩ := missing_tables_are_reported s 0 [] tasks
  have hc : c.store = .gateway (s.replay calls) := hstore
  obtain ⟨s', hs', hmissing⟩ : ∃ s', c.store = .gateway s' ∧ s'.tables.contains "t" = false :=
    ⟨_, rfl, rfl⟩
  cases hc.symm.trans hs'
  have hrun := hreport (.getRow "t" "k") "t" rfl hmissing
  refine ⟨rfl, rfl, congrArg Prod.fst hrun, ?_⟩
  rw [congrArg Prod.snd hrun, hc]
  rfl

end ClientTask

end WideColumn
