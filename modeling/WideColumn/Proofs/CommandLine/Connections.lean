import WideColumn.Proofs.CommandLine.Run

/-!
# The connections of a run

A run asks for one connection at most, and only when everything that can be
checked beforehand has been. What is asked of the store is orderly, so the server
sees the connection opened first and closed last, with proper calls in between.
-/

namespace WideColumn.CommandLine

open Operation

variable {argv : List String} {w : World} {k : Work}

/-- Declaring columns fails for causes of the library's own only. -/
theorem ownFailures_declareAll (r : TableRequest) (columns : List String) :
    OwnFailures (declareAll r columns) := by
  induction columns generalizing r with
  | nil => exact .ok r
  | cons name rest ih =>
    unfold declareAll
    split
    · exact ih _
    · rename_i e hdeclared
      have hown := (Column.ownFailures_parse name none).map r.declare
      exact .error (hown e hdeclared)

/-- What is asked for is checked as a whole before the server is called. -/
theorem orderly_body (schemaName : String) (r : Request) :
    Client.Orderly Client.Anywhere Error.Timely (r.body schemaName) := by
  cases r with
  | createTable store table families columns =>
    exact .lift_bind (fun _ h => nomatch h) fun r _ =>
      .lift_bind (fun _ => Error.timely_of_own (ownFailures_declareAll r columns)) fun r _ =>
        (r.orderly_execute _).bind_pure _
  | dropTable store table => exact ((Client.orderly_dropFrom _ table).bind_pure _).timely
  | listFamilies store table => exact ((Client.orderly_tableFamilies table).bind_pure _).timely

/-- What is asked for does not close a memory store. -/
theorem keeps_open_body (schemaName : String) (r : Request) :
    Keeps (fun c => c.store.closed? = some false) (r.body schemaName) := by
  have hopen := Store.workStable_closed (some false)
  have hany : ∀ n, r.remakes = some n → True := fun _ _ => trivial
  exact keeps_body hopen.toRowStable (fun table fs _ => hopen.createTable table fs)
    (fun table _ => hopen.deleteTable table) schemaName r hany

/-- The work of a run opens and closes its store as it should. -/
theorem Work.bracketed (k : Work) (server : Server) :
    Bracketed k.settings (k.request.body k.schemaName) ⟨server, 0, []⟩ (k.use server) :=
  bracketed_of_orderly (orderly_body k.schemaName k.request) (keeps_open_body k.schemaName k.request)

/-- Calls as a run may make them: every table that is to be made has a name and families, and if the
run is refused there are none, or only those that open and close a connection. -/
structure CallsChecked (calls : List Call) (cause : Option Error) : Prop where
  /-- Every table that is to be made has a name and families. -/
  made : ∀ table families, .createTable table families ∈ calls →
    table ≠ "" ∧ Call.Families families
  /-- A refusal comes before all calls but those that open and close a connection. -/
  refused : ∀ e, cause = some e → e.isRefusal = true →
    calls = [] ∨ ∃ settings, calls = [.connect settings, .close]

theorem CallsChecked.nil (cause : Option Error) : CallsChecked [] cause :=
  ⟨nofun, fun _ _ _ => .inl rfl⟩

/-- Between the opening and the closing of a connection there are proper calls, none of them if what
is asked for is refused. -/
theorem Work.exists_calls_use (hserver : k.settings.interface = .server) (server : Server)
    (log : List LogRecord) :
    ∃ calls, (k.use server).surroundings.server.calls = server.calls ++ calls ∧
      CallsChecked calls (Outcome.ofResult log (k.use server).result).cause := by
  cases hrefuses : server.refuses with
  | true =>
    rw [Work.use, withStore_of_refused hserver hrefuses]
    refine ⟨[.connect k.settings.connectSettings], rfl, by simp, fun e he hrefusal => ?_⟩
    cases he
    cases hrefusal
  | false =>
    obtain ⟨r, c, calls, -, -, hproper, hcause, huse⟩ :=
      withStore_of_orderly ⟨server, 0, []⟩ (orderly_body k.schemaName k.request) hserver hrefuses
    rw [Work.use, huse]
    refine ⟨.connect k.settings.connectSettings :: (calls ++ [.close]), ?_, ?_, ?_⟩
    · change ((server.connected k.settings).replay calls).calls ++ [.close] = _
      rw [Server.calls_replay]
      change server.calls ++ [_] ++ calls ++ [.close] = _
      simp only [List.append_assoc, List.cons_append, List.nil_append]
    · intro table families hmem
      simp only [List.mem_cons, List.mem_append, reduceCtorEq, false_or, List.not_mem_nil,
        or_false] at hmem
      exact hproper.made hmem
    · intro e he hrefusal
      cases r with
      | ok lines => cases he
      | error e' =>
        cases he
        rw [(hcause e rfl).refused hrefusal]
        exact .inr ⟨_, rfl⟩

/-- A run adds its own calls to those on record, and they are as they may be. -/
theorem exists_calls_run (argv : List String) (w : World) :
    ∃ calls, (run argv w).2.server.calls = w.server.calls ++ calls ∧
      CallsChecked calls (run argv w).1.cause := by
  have hsame : (run argv w).2.server = w.server → ∃ calls,
      (run argv w).2.server.calls = w.server.calls ++ calls ∧
        CallsChecked calls (run argv w).1.cause :=
    fun h => ⟨[], by rw [h, List.append_nil], .nil _⟩
  cases hplan : plannedWork argv w with
  | none => exact hsame (run_of_unplanned hplan).2
  | some k =>
    obtain ⟨hout, hafter⟩ := run_of_planned hplan
    cases hinterface : k.settings.interface with
    | memory => exact hsame (hafter.trans (k.server_use_of_memory hinterface w.server))
    | server =>
      rw [hout, hafter]
      exact k.exists_calls_use hinterface w.server _

/-- One connection is asked for at most; unless it is refused, it is closed once, after all that its
user did. Every run of the program opens no store or ends as one such use. -/
theorem connections_are_bracketed :
    (∀ (α : Type) (settings : StoreSettings) (script : ClientScript α) (around : Surroundings),
      Bracketed settings script.run around (withStore settings script.run around)) ∧
    ∀ (argv : List String) (w : World),
      (plannedWork argv w = none ∧ (run argv w).2.server = w.server) ∨
      ∃ k use, plannedWork argv w = some k ∧
        Bracketed k.settings (k.request.body k.schemaName) ⟨w.server, 0, []⟩ use ∧
        (run argv w).1 = .ofResult use.surroundings.log use.result ∧
        (run argv w).2.server = use.surroundings.server := by
  refine ⟨fun α settings script around => script.bracketed, fun argv w => ?_⟩
  cases hplan : plannedWork argv w with
  | none => exact .inl ⟨rfl, (run_of_unplanned hplan).2⟩
  | some k => exact .inr ⟨k, k.use w.server, rfl, k.bracketed w.server, run_of_planned hplan⟩

end WideColumn.CommandLine
