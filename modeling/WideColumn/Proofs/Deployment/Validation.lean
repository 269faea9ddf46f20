import WideColumn.Proofs.CommandLine.Connections
import WideColumn.Proofs.Deployment.Basic
import WideColumn.Proofs.Session.ClientWork

/-!
# Nothing is called for what is refused

Whoever asks for something that is wrong in itself or against the rules is
refused before the server is called: by the schema, the row, the request, the
service or the client at whose hands it is wrong. What gets through to the server
as a table to be made is fit to be one, whichever way it came.
-/

namespace WideColumn.Deployment

open Operation CommandLine

/-- The calls that clients make of the server when a deed is done: the client of the session, or the
one of a run. Commands to the store itself go past the client. -/
def clientCalls (d : Deployment) : Deed → List Call
  | .command c => if c.pastClient then [] else (Session.perform c d.session).1.calls
  | .files _ => []
  | .run argv => (CommandLine.run argv d.world).2.server.calls.drop d.world.server.calls.length

/-- The calls that clients make of the server when one thing is done after the other. -/
def received : List Deed → Deployment → List Call
  | [], _ => []
  | deed :: deeds, d => d.clientCalls deed ++ received deeds (perform deed d).2

variable {d : Deployment}

/-- A command that goes through the client makes no calls past it. -/
theorem clientCalls_of_command {c : Command} (hc : c.pastClient = false) (d : Deployment) :
    d.clientCalls (.command c) = (Session.perform c d.session).1.calls := by
  simp only [clientCalls, hc, Bool.false_eq_true, if_false]

/-- A run adds its own calls to those on record. -/
theorem clientCalls_of_run {argv : List String} {calls : List Call}
    (h : (CommandLine.run argv d.world).2.server.calls = d.world.server.calls ++ calls) :
    d.clientCalls (.run argv) = calls := by
  rw [clientCalls, h, List.drop_left]

/-- A store behind a server stays behind one. -/
theorem exists_gateway_after {s : Server} (hd : d.store = .gateway s) (deeds : List Deed) :
    ∃ s', (d.after deeds).store = .gateway s' := by
  have hsetup : (d.after deeds).store.setup = some s.setup := by
    rw [setup_after, hd]
    rfl
  obtain ⟨s', hs', -⟩ := Store.exists_gateway_of_setup hsetup
  exact ⟨s', hs'⟩

/-- A table that a deed has the server make through a client has a name and families. -/
theorem made_of_mem_clientCalls {s : Server} (hd : d.store = .gateway s) {deed : Deed}
    {table : String} {families : List String}
    (h : .createTable table families ∈ d.clientCalls deed) :
    table ≠ "" ∧ Call.Families families := by
  cases deed with
  | command c =>
    cases hc : c.pastClient with
    | true =>
      simp only [clientCalls, hc, if_true] at h
      cases h
    | false =>
      rw [clientCalls_of_command hc] at h
      obtain ⟨-, hproper, -⟩ := Session.exists_calls_perform hc (s := d.session) hd
      exact hproper.made h
  | files tree => cases h
  | run argv =>
    obtain ⟨calls, hcalls, hchecked⟩ := exists_calls_run argv d.world
    rw [clientCalls_of_run hcalls] at h
    exact hchecked.made table families h

/-- So it is with every table that is ever made through a client; by induction on the deeds. -/
theorem made_of_mem_received {s : Server} (hd : d.store = .gateway s) {deeds : List Deed}
    {table : String} {families : List String} (h : .createTable table families ∈ d.received deeds) :
    table ≠ "" ∧ Call.Families families := by
  induction deeds generalizing d s with
  | nil => cases h
  | cons deed deeds ih =>
    obtain ⟨s', hs'⟩ := exists_gateway_after hd [deed]
    rcases List.mem_append.mp h with hnow | hlater
    · exact made_of_mem_clientCalls hd hnow
    · exact ih hs' hlater

/-- What is refused for its arguments makes no call of the server but those for opening and closing
it, and no table was ever asked for without a name and families. -/
theorem checked_before_called {s : Server} (hd : d.store = .gateway s) (deeds : List Deed) :
    let d' := d.after deeds
    (∀ c e, c.pastClient = false → (Session.perform c d'.session).1.result = .error e →
      e.isRefusal = true → (Session.perform c d'.session).1.calls = []) ∧
    (∀ argv e, (CommandLine.run argv d'.world).1.cause = some e → e.isRefusal = true →
      d'.clientCalls (.run argv) = [] ∨
        ∃ settings, d'.clientCalls (.run argv) = [.connect settings, .close]) ∧
    ∀ table families, .createTable table families ∈ d.received deeds →
      table ≠ "" ∧ Call.Families families := by
  intro d'
  obtain ⟨s', hs'⟩ := exists_gateway_after hd deeds
  refine ⟨fun c e hc => ?_, fun argv e hcause hrefusal => ?_, fun table families => ?_⟩
  · obtain ⟨-, -, hrefused⟩ := Session.exists_calls_perform hc (s := d'.session) hs'
    exact hrefused e
  · obtain ⟨calls, hcalls, hchecked⟩ := exists_calls_run argv d'.world
    rw [clientCalls_of_run hcalls]
    exact hchecked.refused e hcause hrefusal
  · exact made_of_mem_received hd

/-- A request names a family twice, is carried out, and is refused when it is carried out again; a run
that asks for a column of another family is refused after it has opened its connection. -/
theorem checked_before_called_again :
    let d := start (.gateway (.withTables .bytes ":" false [])) (.empty []) serverRemembered default
    let deeds : List Deed :=
      [.command (.liveSchema (some "S") "s" []),
        .command (.request (some "b") "S" (some "t") (.names ["g", "f", "g"])),
        .command (.execute none "b")]
    let d' := d.after deeds
    let argv := ["create-table", "--store", "hbase", "--table", "u", "--family", "f", "--column",
      "g:q"]
    d.received deeds = [.createTable "t" ["f", "g"]] ∧ Call.Families ["f", "g"] ∧
      (Session.perform (.execute none "b") d'.session).1.result =
        .error (.alreadyExecuted (some "t")) ∧
      (Session.perform (.execute none "b") d'.session).1.calls = [] ∧
      (CommandLine.run argv d'.world).1.cause = some (.unknownFamily "g:q" (some "u")) ∧
      ∃ settings, d'.clientCalls (.run argv) = [.connect settings, .close] := by
  intro d deeds d' argv
  obtain ⟨hcommand, hrun, hmade⟩ := checked_before_called (d := d) rfl deeds
  have hreceived : d.received deeds = [.createTable "t" ["f", "g"]] := rfl
  have hcause : (CommandLine.run argv d'.world).1.cause =
      some (.unknownFamily "g:q" (some "u")) := rfl
  refine ⟨hreceived, (hmade "t" ["f", "g"] (by rw [hreceived]; exact .head _)).2, rfl,
    hcommand (.execute none "b") _ rfl rfl rfl, hcause, ?_⟩
  obtain hnone | hframed := hrun argv _ hcause rfl
  · cases hnone
  · exact hframed

end WideColumn.Deployment
