import WideColumn.Proofs.Store.Making
import WideColumn.Proofs.Store.Opening

/-!
# What a run does to its server

A run that is understood and whose configuration names a store behind a server
connects, does what it is asked through a client of its own, and closes the
connection. Every other run leaves the server as it was. So what a run does to
the contents of a server is what its client does, and whatever survives the use
of a store survives the run.
-/

namespace WideColumn.CommandLine

open Operation

/-- A standard configuration with one store behind a server is remembered. -/
def serverRemembered : Cache :=
  some (FileTree.standardUnder [],
    ⟨"default", [⟨"hbase", .server, some "localhost", none, none, none⟩]⟩)

/-- The table that a request makes or drops. -/
def Request.remakes : Request → Option String
  | createTable _ table _ _ => some table
  | dropTable _ table => some table
  | listFamilies _ _ => none

/-- What a run carries out on a server. -/
structure Work where
  /-- The name for schemas. -/
  schemaName : String
  /-- The settings of the store. -/
  settings : StoreSettings
  /-- What is asked for. -/
  request : Request

/-- The work of a run on the server that it finds, if it comes to that: its command line is
understood, its configuration can be loaded, and the store that it asks for is behind a server. -/
def workOf (argv : List String) (w : World) : Option Work :=
  match Invocation.ofArguments argv with
  | .error _ => none
  | .ok i =>
    match (load w.tree (i.source w.tree) w.cache).1, i.request with
    | .ok c, .ok r =>
      match r.settings c with
      | .ok s => if s.interface = .server then some ⟨c.schemaName, s, r⟩ else none
      | .error _ => none
    | _, _ => none

variable {argv : List String} {w : World} {k : Work} {Q : Store → Prop} {names : String → Prop}

/-- What survives the use of a store survives what is asked for, if this makes or drops no other
tables than those at issue. -/
theorem keeps_body (hrow : Store.RowStable Q)
    (hcreate : ∀ table fs, names table → Keeps Q (Store.createTable table fs))
    (hdrop : ∀ table, names table → Keeps Q (Store.deleteTable table)) (schemaName : String)
    (r : Request) (hnames : ∀ n, r.remakes = some n → names n) :
    Keeps (fun c => Q c.store) (r.body schemaName) := by
  cases r with
  | createTable store table families columns =>
    refine (Leaves.lift _).bind_keeps fun r c hnew hc => ?_
    cases hnew
    apply (Leaves.lift _).bind_keeps (P := fun c : Client => Q c.store) (fun r c hdeclared hc => ?_)
      c hc
    have hname := (declareAll_eq_ok (congrArg Prod.fst hdeclared)).1
    have hmake : ∀ n fs, r.tableName = some n → Keeps Q (Store.createTable n fs) :=
      fun n fs hn => hcreate n fs (hnames n (hname.symm.trans hn))
    exact ((TableRequest.keeps_execute hmake _).bind fun _ => .pure _) c hc
  | dropTable store table =>
    exact (Client.keeps_dropFrom hrow (hdrop table (hnames table rfl)) _).bind fun _ => .pure _
  | listFamilies store table =>
    exact ((Client.keeps_requireTable hrow table).bind fun _ =>
      Client.keeps_onStore (hrow.tableFamilies table)).bind fun _ => .pure _

/-- The outcome of a use of a store. -/
def Outcome.ofResult (log : List LogRecord) : Except Error (List String) → Outcome
  | .ok lines => .done lines log
  | .error e => .failed e log

/-- The cause for which a run failed, if it came so far. -/
def Outcome.cause : Outcome → Option Error
  | .failed e _ => some e
  | _ => none

/-- The use of its store that a run makes. -/
def Work.use (k : Work) (server : Server) : Use (List String) :=
  withStore k.settings (k.request.body k.schemaName) ⟨server, 0, []⟩

/-- The work of a run, if it comes to the opening of a store: its command line is understood, its
configuration can be loaded, and there is such a store as it asks for. -/
def plannedWork (argv : List String) (w : World) : Option Work :=
  match Invocation.ofArguments argv with
  | .error _ => none
  | .ok i =>
    match (load w.tree (i.source w.tree) w.cache).1, i.request with
    | .ok c, .ok r =>
      match r.settings c with
      | .ok s => some ⟨c.schemaName, s, r⟩
      | .error _ => none
    | _, _ => none

/-- What has been understood, loaded and found where work is planned. -/
theorem plannedWork_eq_some (h : plannedWork argv w = some k) :
    ∃ i c cache, Invocation.ofArguments argv = .ok i ∧
      load w.tree (i.source w.tree) w.cache = (.ok c, cache) ∧ i.request = .ok k.request ∧
      k.request.settings c = .ok k.settings ∧ k.schemaName = c.schemaName := by
  unfold plannedWork at h
  split at h
  · cases h
  · rename_i i hi
    split at h
    · rename_i c r hl hr
      split at h
      · rename_i s hs
        cases h
        exact ⟨i, c, _, hi, Prod.ext hl rfl, hr, hs, rfl⟩
      · cases h
    · cases h

/-- Work on a server is work that was planned for one. -/
theorem workOf_eq_some_iff :
    workOf argv w = some k ↔ plannedWork argv w = some k ∧ k.settings.interface = .server := by
  have hfilter : workOf argv w =
      (plannedWork argv w).filter fun k => k.settings.interface = .server := by
    unfold workOf plannedWork
    repeat' split
    all_goals simp_all [Option.filter]
  rw [hfilter, Option.filter_eq_some_iff, decide_eq_true_eq]

/-- A run that comes to the opening of a store ends as the use of this store does. -/
theorem run_of_planned (h : plannedWork argv w = some k) :
    (run argv w).1 = .ofResult (k.use w.server).surroundings.log (k.use w.server).result ∧
      (run argv w).2.server = (k.use w.server).surroundings.server := by
  obtain ⟨i, c, cache, hi, hl, hr, hs, hname⟩ := plannedWork_eq_some h
  simp only [run, hi, runInvocation, hl, hr, carryOut, hs, Work.use, hname]
  cases (withStore k.settings (k.request.body c.schemaName) ⟨w.server, 0, []⟩).result <;>
    exact ⟨rfl, rfl⟩

/-- Any other run is stopped by its command line or fails without a log, and leaves the server. -/
theorem run_of_unplanned (h : plannedWork argv w = none) :
    ((∃ s, Invocation.ofArguments argv = .error s ∧ (run argv w).1 = .stopped s) ∨
      ∃ e, (run argv w).1 = .failed e []) ∧
      (run argv w).2.server = w.server := by
  unfold plannedWork at h
  unfold run
  cases hi : Invocation.ofArguments argv with
  | error e => exact ⟨.inl ⟨e, rfl, rfl⟩, rfl⟩
  | ok i =>
    simp only [hi] at h
    simp only [runInvocation]
    rcases hl : load w.tree (i.source w.tree) w.cache with ⟨e | c, cache⟩ <;> simp only [hl] at h
    · exact ⟨.inr ⟨e, rfl⟩, rfl⟩
    · cases hr : i.request with
      | error e => exact ⟨.inr ⟨e, rfl⟩, rfl⟩
      | ok r =>
        simp only [hr] at h
        cases hs : r.settings c with
        | error e => exact ⟨.inr ⟨e, by simp only [carryOut, hs]⟩, by simp only [carryOut, hs]⟩
        | ok s => simp only [hs] at h; cases h

/-- A memory store is the run's own, starts empty and is gone at its end. -/
theorem Work.server_use_of_memory (h : k.settings.interface = .memory) (server : Server) :
    (k.use server).surroundings.server = server := by
  have hstable := Store.stable_setup (fun _ => True) none
  have hused := keeps_body hstable.toRowStable hstable.createTable hstable.deleteTable k.schemaName
    k.request (fun _ _ => trivial) (clientOn k.settings (.memory .empty) ⟨server, 0, []⟩) rfl
  rcases hr : k.request.body k.schemaName (clientOn k.settings (.memory .empty) ⟨server, 0, []⟩)
    with ⟨r, c⟩
  rw [hr] at hused
  obtain ⟨m, hstore⟩ : ∃ m, c.store = .memory m := Store.exists_memory_of_setup hused
  rw [Work.use, withStore_of_memory h hr hstore]
  rfl

/-- All that a run can do to its server: nothing, or its work. -/
theorem run_cases (argv : List String) (w : World) :
    (workOf argv w = none ∧ (run argv w).2.server = w.server) ∨
    ∃ k log, workOf argv w = some k ∧ k.settings.interface = .server ∧
      (run argv w).1 = .ofResult log (k.use w.server).result ∧
      (run argv w).2.server = (k.use w.server).surroundings.server := by
  cases hwork : workOf argv w with
  | none =>
    refine .inl ⟨rfl, ?_⟩
    cases hplan : plannedWork argv w with
    | none => exact (run_of_unplanned hplan).2
    | some k =>
      have hmemory : k.settings.interface = .memory := by
        cases hinterface : k.settings.interface with
        | memory => rfl
        | server => cases hwork.symm.trans (workOf_eq_some_iff.mpr ⟨hplan, hinterface⟩)
      rw [(run_of_planned hplan).2]
      exact k.server_use_of_memory hmemory w.server
  | some k =>
    obtain ⟨hplan, hserver⟩ := workOf_eq_some_iff.mp hwork
    obtain ⟨hout, hafter⟩ := run_of_planned hplan
    exact .inr ⟨k, _, rfl, hserver, hout, hafter⟩

/-- A run at whose work the server refuses changes nothing there. -/
theorem run_of_refused (h : workOf argv w = some k) (hrefuses : w.server.refuses = true) :
    (run argv w).1.cause = some .systemRefused ∧
      (run argv w).2.server.forgetCalls = w.server.forgetCalls := by
  obtain ⟨hplan, hserver⟩ := workOf_eq_some_iff.mp h
  obtain ⟨hout, hafter⟩ := run_of_planned hplan
  rw [Work.use, withStore_of_refused hserver hrefuses] at hout hafter
  rw [hout, hafter]
  exact ⟨rfl, rfl⟩

/-- A run at whose work the server does not refuse does what is asked through a client of its own. -/
theorem run_of_connected (h : workOf argv w = some k) (hrefuses : w.server.refuses = false) :
    ∃ c log, c.store.forgetCalls = (Store.gateway w.server).forgetCalls ∧
      (run argv w).1 = .ofResult log (k.request.body k.schemaName c).1 ∧
      (Store.gateway (run argv w).2.server).forgetCalls =
        (k.request.body k.schemaName c).2.store.forgetCalls := by
  obtain ⟨hplan, hserver⟩ := workOf_eq_some_iff.mp h
  obtain ⟨hout, hafter⟩ := run_of_planned hplan
  let c := clientOn k.settings (.gateway (w.server.connected k.settings)) ⟨w.server, 0, []⟩
  have hc : c.store.forgetCalls = (Store.gateway w.server).forgetCalls := rfl
  rcases hr : k.request.body k.schemaName c with ⟨r, c'⟩
  have hstable := Store.stable_setup (fun _ => True) (some w.server.setup)
  have hsetup := keeps_body hstable.toRowStable hstable.createTable hstable.deleteTable k.schemaName
    k.request (fun _ _ => trivial) c rfl
  rw [hr] at hsetup
  obtain ⟨s, hstore, -⟩ : ∃ s, c'.store = .gateway s ∧ s.setup = w.server.setup :=
    Store.exists_gateway_of_setup hsetup
  rw [Work.use, withStore_of_connected hserver hrefuses hr hstore] at hout hafter
  refine ⟨c, _, hc, hout.trans (by rw [hr]), ?_⟩
  rw [hafter, hr]
  simp only [hstore]
  rfl

/-- What survives the use of a store survives a run on its server, if the run makes or drops no other
tables than those at issue. -/
theorem server_of_stable (hQ : Store.Stable names Q) (argv : List String) (w : World)
    (hnames : ∀ k n, workOf argv w = some k → k.request.remakes = some n → names n)
    (hw : Q (.gateway w.server)) : Q (.gateway (run argv w).2.server) := by
  obtain ⟨-, hsame⟩ | ⟨k, -, hk, -⟩ := run_cases argv w
  · rw [hsame]
    exact hw
  · cases hrefuses : w.server.refuses with
    | true =>
      have hsame := (run_of_refused hk hrefuses).2
      exact hQ.sameContents (.gateway w.server) _ (congrArg Store.gateway hsame.symm) hw
    | false =>
      obtain ⟨c, log, hc, -, hafter⟩ := run_of_connected hk hrefuses
      have hbody := keeps_body hQ.toRowStable hQ.createTable hQ.deleteTable k.schemaName k.request
        (fun n => hnames k n hk) c (hQ.sameContents _ _ hc.symm hw)
      exact hQ.sameContents _ _ hafter.symm hbody

end WideColumn.CommandLine
