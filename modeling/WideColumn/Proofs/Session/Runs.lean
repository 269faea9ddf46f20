import WideColumn.Proofs.Session.Services
import WideColumn.Proofs.Store.Stability

/-!
# What a run of commands cannot change

Commands reach the store through requests, rows, drops, the client and the store
itself. Whatever survives the use of a store, as long as only some of its tables
are made and dropped, survives a command that makes or drops at most one of
these, and so a run of such commands.
-/

namespace WideColumn

open Operation OrderedMap

/-- The table that a command makes or drops, if it comes to that. Which table a request makes is
known from what the session keeps. -/
def Command.remakes (s : Session) : Command → Option String
  | .execute _ handle =>
    match s.kept.get? handle with
    | some (.request r _) => r.tableName
    | _ => none
  | .dropTable _ table => some table
  | .client (.createTable table _) => table
  | .client (.dropTable table) => some table
  | .store (.createTable table _) => some table
  | .store (.deleteTable table) => some table
  | _ => none

namespace Session

variable {names : String → Prop} {Q : Store → Prop} {α : Type}

/-- A request that is found is kept under its name. -/
theorem findRequest_eq_ok {name : String} {p : TableRequest × Nat} {s s' : Session}
    (h : findRequest name s = (.ok p, s')) :
    s.kept.get? name = some (.request p.1 p.2) ∧ s' = s := by
  obtain ⟨e, s₁, hfind, hgive⟩ := bind_eq_ok h
  unfold find at hfind
  split at hfind
  · rename_i kept hkept
    cases hfind
    cases e with
    | request r place =>
      cases hgive
      exact ⟨hkept, rfl⟩
    | table | live | frozen | draft | row => cases hgive
  · cases hfind

/-- What is kept under a name is found under it. -/
theorem find_of_kept {name : String} {e : Entity} {s : Session}
    (h : s.kept.get? name = some e) : find name s = (.ok e, s) := by
  simp only [find, h]

/-- A request that is kept under a name is found under it. -/
theorem findRequest_of_kept {name : String} {r : TableRequest} {place : Nat} {s : Session}
    (h : s.kept.get? name = some (.request r place)) :
    findRequest name s = (.ok (r, place), s) :=
  bind_of_ok (find_of_kept h)

theorem schemaAt_of_some {place : Nat} {S : LiveSchema} {s : Session}
    (h : s.schemas[place]? = some S) : schemaAt place s = (.ok S, s) := by
  change Operation.require s.schemas[place]? .missingKey s = _
  rw [h]
  rfl

theorem schemaAt_of_none {place : Nat} {s : Session} (h : s.schemas[place]? = none) :
    schemaAt place s = (.error .missingKey, s) := by
  change Operation.require s.schemas[place]? .missingKey s = _
  rw [h]
  rfl

@[simp] theorem remakes_quiet (c : Command) (s : Session) : c.remakes s.quiet = c.remakes s := by
  unfold Command.remakes
  rfl

/-- A property of the store that an operation keeps is kept by a session that carries it out. -/
theorem keeps_onStore {op : Operation Store α} (h : Keeps Q op) :
    Keeps (fun s : Session => Q s.client.store) (onStore op) :=
  keeps_onClient (P := fun _ => Q) fun _ => Client.keeps_onStore h

/-- What survives the use of a store survives the commands to the client. -/
theorem keeps_clientStep (hQ : Store.Stable names Q) {s : Session} (c : ClientCommand)
    (hnames : ∀ n, (Command.client c).remakes s = some n → names n) :
    Keeps (fun s : Session => Q s.client.store) (clientStep c) := by
  have hclient : ∀ {β : Type} {op : Operation Client β}, Keeps (fun c => Q c.store) op →
      Keeps (fun s : Session => Q s.client.store) (onClient op) :=
    fun hop => keeps_onClient (P := fun _ => Q) fun _ => hop
  cases c with
  | createTable table families =>
    exact (hclient (Client.keeps_createTable
      (fun n fs hn => hQ.createTable n fs (hnames n hn)) families)).bind fun _ => .pure _
  | dropTable table =>
    exact (hclient (Client.keeps_dropTable hQ.toRowStable
      (hQ.deleteTable table (hnames table rfl)))).bind fun _ => .pure _
  | tableExists table =>
    exact (hclient (Client.keeps_onStore (hQ.tableExists table))).bind fun _ => .pure _
  | tableFamilies table =>
    exact (hclient ((Client.keeps_requireTable hQ.toRowStable table).bind fun _ =>
      Client.keeps_onStore (hQ.tableFamilies table))).bind fun _ => .pure _
  | getRow table key =>
    exact (hclient ((Client.keeps_requireTable hQ.toRowStable table).bind fun _ =>
      Client.keeps_onStore (hQ.get table key))).bind fun _ => .pure _
  | deleteRow table key =>
    exact (hclient (Client.keeps_deleteRow hQ.toRowStable table key)).bind fun _ => .pure _
  | abilities => exact .pure _

/-- Closing the store keeps what is stable. -/
theorem keeps_closeStore (hQ : Store.Stable names Q) :
    Keeps (fun s : Session => Q s.client.store) closeStore := by
  refine (keeps_onStore hQ.close).bind fun _ => Leaves.state.keeps.bind fun s => ?_
  split <;> exact .pure _

/-- What survives the use of a store survives the commands to it; bytes merged into a row of a server
past the gateway are a case of their own. -/
theorem keeps_storeStep (hQ : Store.Stable names Q) {s : Session} (c : StoreCommand)
    (hnames : ∀ n, (Command.store c).remakes s = some n → names n)
    (hmerge : ∀ table row cells, c = .mergeRow table row cells →
      Keeps Q (Store.mergeRow table row cells)) :
    Keeps (fun s : Session => Q s.client.store) (storeStep c) := by
  cases c with
  | createTable table families =>
    exact (keeps_onStore (hQ.createTable table _ (hnames table rfl))).bind fun _ => .pure _
  | deleteTable table =>
    exact (keeps_onStore (hQ.deleteTable table (hnames table rfl))).bind fun _ => .pure _
  | tableExists table => exact (keeps_onStore (hQ.tableExists table)).bind fun _ => .pure _
  | tableFamilies table => exact (keeps_onStore (hQ.tableFamilies table)).bind fun _ => .pure _
  | put table key cells => exact (keeps_onStore (hQ.put table key cells)).bind fun _ => .pure _
  | get table key => exact (keeps_onStore (hQ.get table key)).bind fun _ => .pure _
  | delete table key => exact (keeps_onStore (hQ.delete table key)).bind fun _ => .pure _
  | close => exact keeps_closeStore hQ
  | inspect => exact leaves_inspectStore.keeps
  | mergeRow table row cells =>
    exact (keeps_onStore (hmerge table row cells rfl)).bind fun _ => .pure _

/-- Carrying out a request keeps what survives the making of the requested table. -/
theorem keeps_step_execute (hQ : Store.Stable names Q) {s : Session} (keepAs : Option String)
    (request : String) (hnames : ∀ n, (Command.execute keepAs request).remakes s = some n → names n)
    (hs : Q s.client.store) : Q (step (.execute keepAs request) s).2.client.store := by
  have hstep : step (.execute keepAs request) =
      findRequest request >>= fun p => schemaAt p.2 >>= fun S =>
        onClient (p.1.execute S) >>= fun a => setSchema p.2 a.2.1 >>= fun _ =>
          keep (some request) (.request a.2.2 p.2) >>= fun _ =>
            keep keepAs (.table a.1) >>= fun _ => pure (.table (some a.1)) := rfl
  have hset : ∀ place S, Keeps (fun s : Session => Q s.client.store) (setSchema place S) :=
    fun _ _ _ hs => hs
  rw [hstep, bind_apply]
  rcases hfind : findRequest request s with ⟨e | p, s'⟩
  · have hsame : s' = s := (congrArg Prod.snd hfind).symm.trans (leaves_findRequest request s)
    rw [hsame]
    exact hs
  · obtain ⟨hkept, rfl⟩ := findRequest_eq_ok hfind
    have hname : ∀ n fs, p.1.tableName = some n → Keeps Q (Store.createTable n fs) := by
      intro n fs hn
      apply hQ.createTable n fs (hnames n _)
      simp only [Command.remakes, hkept, hn]
    have hrest := (leaves_schemaAt p.2).keeps.bind fun S =>
      (keeps_onClient (P := fun _ => Q) fun _ => TableRequest.keeps_execute hname S).bind fun a =>
        (hset p.2 a.2.1).bind fun _ => (keeps_keep (P := fun _ => Q) (some request)
          (.request a.2.2 p.2)).bind fun _ => keeps_keep_answer (P := fun _ => Q) keepAs
            (.table a.1) (.table (some a.1))
    exact hrest s' hs

/-- What survives the use of a store survives every command, if the command makes or drops no other
tables than those at issue. -/
theorem keeps_of_stable (hQ : Store.Stable names Q) {s : Session} (c : Command)
    (hnames : ∀ n, c.remakes s = some n → names n)
    (hmerge : ∀ table row cells, c = .store (.mergeRow table row cells) →
      Keeps Q (Store.mergeRow table row cells))
    (hs : Q s.client.store) : Q (step c s).2.client.store := by
  cases hspares : c.sparesTables with
  | true => exact keeps_step_of_sparesTables (P := fun _ => Q) (fun _ => hQ.toRowStable) c hspares s hs
  | false =>
    have hset : ∀ place S, Keeps (fun s : Session => Q s.client.store) (setSchema place S) :=
      fun _ _ _ hs => hs
    cases c with
    | liveSchema keepAs name tables =>
      have hnew : ∀ S, Keeps (fun s : Session => Q s.client.store) (newSchema S) :=
        fun _ _ hs => hs
      exact ((leaves_findTables tables).keeps.bind fun _ => (hnew _).bind fun _ =>
        keeps_keep_answer (P := fun _ => Q) _ _ _) s hs
    | addTable schema table =>
      exact ((leaves_findLive schema _).keeps.bind fun _ =>
        (leaves_findTable table).keeps.bind fun _ => (hset _ _).bind fun _ => .pure _) s hs
    | removeTable schema table =>
      exact ((leaves_findLive schema _).keeps.bind fun _ => (hset _ _).bind fun _ => .pure _) s hs
    | execute keepAs request => exact keeps_step_execute hQ keepAs request hnames hs
    | dropTable schema table =>
      have hdrop := hQ.deleteTable table (hnames table rfl)
      exact ((leaves_findLive schema _).keeps.bind fun _ =>
        (keeps_onClient (P := fun _ => Q) fun _ =>
          Client.keeps_dropFrom hQ.toRowStable hdrop _).bind fun _ =>
            (hset _ _).bind fun _ => .pure _) s hs
    | client c => exact keeps_clientStep hQ c hnames s hs
    | store c =>
      have hmerge' : ∀ table row cells, c = .mergeRow table row cells →
          Keeps Q (Store.mergeRow table row cells) :=
        fun table row cells hc => hmerge table row cells (congrArg Command.store hc)
      exact keeps_storeStep hQ c hnames hmerge' s hs
    | _ => cases hspares

/-- So it is with a command that has its own log and record of calls. -/
theorem perform_of_stable (hQ : Store.Stable names Q) {s : Session} (c : Command)
    (hnames : ∀ n, c.remakes s = some n → names n)
    (hmerge : ∀ table row cells, c = .store (.mergeRow table row cells) →
      Keeps Q (Store.mergeRow table row cells))
    (hs : Q s.client.store) : Q (perform c s).2.client.store := by
  have hquiet : Q s.quiet.client.store := hQ.forgetCalls _ hs
  exact keeps_of_stable hQ c (fun n hn => hnames n (remakes_quiet c s ▸ hn)) hmerge hquiet

/-- What survives the use of a store with all its tables survives every run of commands; by
induction on the commands. -/
theorem after_of_stable (hQ : Store.Stable (fun _ => True) Q) {cs : List Command}
    (hmerge : ∀ table row cells, .store (.mergeRow table row cells) ∈ cs →
      Keeps Q (Store.mergeRow table row cells))
    {s : Session} (hs : Q s.client.store) : Q (s.after cs).client.store := by
  induction cs generalizing s with
  | nil => exact hs
  | cons c cs ih =>
    have hstep : Q (perform c s).2.client.store :=
      perform_of_stable hQ c (fun _ _ => trivial)
        (fun table row cells hc => hmerge table row cells (hc ▸ List.mem_cons_self ..)) hs
    exact ih (fun table row cells hmem =>
      hmerge table row cells (List.mem_cons_of_mem c hmem)) hstep

end Session

end WideColumn
