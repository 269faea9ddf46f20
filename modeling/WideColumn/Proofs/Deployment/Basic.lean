import WideColumn.Proofs.CommandLine.Run
import WideColumn.Proofs.Session.Runs

/-!
# A session and runs of the program on one server

A session keeps one store open. Meanwhile the program may be run any number of
times, each time on the server that is behind this store, if there is one, and
files may change between the runs. Whatever survives the use of a store survives
everything that is done, as long as only some of the tables are made and dropped.
-/

namespace WideColumn

open Operation OrderedMap CommandLine

/-- The cause for which an attempt failed, if it failed. -/
def failure? {α : Type} : Except Error α → Option Error
  | .ok _ => none
  | .error e => some e

/-- A session with everything that runs of the program find besides. -/
structure Deployment where
  /-- The session. -/
  session : Session
  /-- The files. -/
  tree : FileTree
  /-- The configuration that was loaded last. -/
  cache : Cache
  /-- The server that runs reach while the session works in memory. -/
  other : Server

/-- One thing that is done. -/
inductive Deed where
  /-- A command of the session is carried out. -/
  | command (c : Command)
  /-- The files change. -/
  | files (tree : FileTree)
  /-- The program is run. -/
  | run (argv : List String)

namespace Deployment

/-- The store that the session keeps open. -/
def store (d : Deployment) : Store := d.session.client.store

/-- The server that runs reach: the one behind the store, if there is one. -/
def server (d : Deployment) : Server := d.store.serverAfter d.other

/-- What a run finds. -/
def world (d : Deployment) : World := ⟨d.tree, d.cache, d.server⟩

/-- The deployment with the server as a run has left it. -/
def withServer (d : Deployment) (s : Server) : Deployment :=
  match d.store with
  | .memory _ => { d with other := s }
  | .gateway _ =>
    { d with session := { d.session with client := { d.session.client with store := .gateway s } } }

/-- Do one thing. The result is the cause for which it failed, if it failed. -/
def perform : Deed → Deployment → Option Error × Deployment
  | .command c, d =>
    let (report, session) := Session.perform c d.session
    (failure? report.result, { d with session := session })
  | .files tree, d => (none, { d with tree := tree })
  | .run argv, d =>
    let (outcome, w) := run argv d.world
    (outcome.cause, { d with cache := w.cache }.withServer w.server)

/-- The deployment after one thing after the other was done, whether it failed or not. -/
def after (d : Deployment) (deeds : List Deed) : Deployment :=
  deeds.foldl (fun d deed => (perform deed d).2) d

/-- Nothing has been done yet, but that a configuration may be remembered. -/
def start (st : Store) (tree : FileTree) (cache : Cache) (other : Server) : Deployment :=
  ⟨Session.on st, tree, cache, other⟩

theorem server_of_gateway {d : Deployment} {s : Server} (h : d.store = .gateway s) :
    d.server = s := by
  rw [server, h]
  rfl

/-- Runs do not concern a store in memory. -/
theorem store_perform_run_of_memory {d : Deployment} {m : Memory} (h : d.store = .memory m)
    (argv : List String) : (perform (.run argv) d).2.store = .memory m := by
  have hafter : (perform (.run argv) d).2.store =
      (withServer { d with cache := (run argv d.world).2.cache } (run argv d.world).2.server).store :=
    rfl
  have hstore : store { d with cache := (run argv d.world).2.cache } = .memory m := h
  rw [hafter, withServer, hstore]
  exact h

/-- A run leaves its server behind the store. -/
theorem store_perform_run_of_gateway {d : Deployment} {s : Server} (h : d.store = .gateway s)
    (argv : List String) :
    (perform (.run argv) d).2.store = .gateway (run argv d.world).2.server := by
  have hafter : (perform (.run argv) d).2.store =
      (withServer { d with cache := (run argv d.world).2.cache } (run argv d.world).2.server).store :=
    rfl
  have hstore : store { d with cache := (run argv d.world).2.cache } = .gateway s := h
  rw [hafter, withServer, hstore]
  rfl

/-- The table that a deed makes or drops, if it comes to that. A run does so on the server behind
the store. -/
def remakes (d : Deployment) : Deed → Option String
  | .command c => c.remakes d.session
  | .files _ => none
  | .run argv =>
    match d.store with
    | .memory _ => none
    | .gateway _ => (workOf argv d.world).bind fun k => k.request.remakes

/-- No other tables are made or dropped than those at issue. -/
def RemakesOnly (names : String → Prop) : List Deed → Deployment → Prop
  | [], _ => True
  | deed :: deeds, d =>
    (∀ n, d.remakes deed = some n → names n) ∧ RemakesOnly names deeds (perform deed d).2

/-- A table is left alone: whatever is done concerns rows or other tables. -/
def Spares (name : String) (deeds : List Deed) (d : Deployment) : Prop :=
  RemakesOnly (· ≠ name) deeds d

/-- Where every making is allowed, nothing is asked of what was done. -/
theorem remakesOnly_true (deeds : List Deed) (d : Deployment) :
    RemakesOnly (fun _ => True) deeds d := by
  induction deeds generalizing d with
  | nil => trivial
  | cons deed deeds ih => exact ⟨fun _ _ => trivial, ih _⟩

variable {names : String → Prop} {Q : Store → Prop} {d : Deployment}

/-- What survives the use of a store survives a deed that makes or drops no other tables than those
at issue. -/
theorem perform_of_stable (hQ : Store.Stable names Q)
    (hmerge : ∀ table row cells, Keeps Q (Store.mergeRow table row cells)) {deed : Deed}
    (hnames : ∀ n, d.remakes deed = some n → names n) (hd : Q d.store) :
    Q (perform deed d).2.store := by
  cases deed with
  | command c =>
    exact Session.perform_of_stable hQ c hnames (fun table row cells _ => hmerge table row cells) hd
  | files tree => exact hd
  | run argv =>
    cases hstore : d.store with
    | memory m =>
      rw [store_perform_run_of_memory hstore, ← hstore]
      exact hd
    | gateway s =>
      have hserver : Q (.gateway d.world.server) := by
        rw [world, server_of_gateway hstore, ← hstore]
        exact hd
      have hwork : ∀ k n, workOf argv d.world = some k → k.request.remakes = some n → names n := by
        intro k n hk hn
        apply hnames n
        simp only [remakes, hstore, hk, Option.bind_some, hn]
      rw [store_perform_run_of_gateway hstore]
      exact server_of_stable hQ argv d.world hwork hserver

/-- So it survives everything that is done; by induction on the deeds. -/
theorem after_of_stable (hQ : Store.Stable names Q)
    (hmerge : ∀ table row cells, Keeps Q (Store.mergeRow table row cells)) {deeds : List Deed}
    (hnames : RemakesOnly names deeds d) (hd : Q d.store) : Q (d.after deeds).store := by
  induction deeds generalizing d with
  | nil => exact hd
  | cons deed deeds ih =>
    obtain ⟨hfirst, hrest⟩ := hnames
    have hstep := perform_of_stable hQ hmerge hfirst hd
    exact ih hrest hstep

/-- Nothing that is done changes how the server was set up. -/
theorem setup_after (deeds : List Deed) (d : Deployment) :
    (d.after deeds).store.setup = d.store.setup :=
  after_of_stable (Store.stable_setup _ d.store.setup)
    (Store.keeps_setup_mergeRow d.store.setup) (remakesOnly_true deeds d) rfl

/-- No deed changes how a server was set up. -/
theorem setup_perform (deed : Deed) (d : Deployment) :
    (perform deed d).2.store.setup = d.store.setup :=
  setup_after [deed] d

/-- Nothing that is done takes the catalogues of a memory store apart. -/
theorem paired_after {d : Deployment} (h : d.store.Paired) (deeds : List Deed) :
    (d.after deeds).store.Paired :=
  after_of_stable (Store.stable_paired _) Store.keeps_paired_mergeRow (remakesOnly_true deeds d) h

/-- A table that is left alone keeps its families. -/
theorem families_after {name : String} {fs : NameSet} {deeds : List Deed}
    (hspares : d.Spares name deeds) (h : d.store.holdings.get? name = some fs) :
    (d.after deeds).store.holdings.get? name = some fs :=
  after_of_stable (Store.stable_families name fs) (Store.keeps_families_mergeRow name fs) hspares h

end Deployment

end WideColumn
