import WideColumn.Proofs.Store.Atomicity
import WideColumn.Proofs.Store.HalfPuts
import WideColumn.Session

/-!
# What failed commands leave of a session

A command looks up what it works on, may be refused by the values it is given or
by the store, and only then changes schemas and keeps things under names. So a
failure leaves the schemas and everything that is kept untouched. It leaves the
contents of the store untouched as well, unless the command puts a value that
cannot be copied into a memory store.
-/

namespace WideColumn

open Operation

namespace Command

/-- The command puts cells, or a row, into the store. -/
def isPut : Command → Bool
  | store (.put _ _ _) | putRow _ | insertRow _ => true
  | _ => false

/-- In the session the command asks the store to put cells under a key of a table. -/
inductive Puts (s : Session) (table key : String) (cells : Cells) : Command → Prop where
  /-- Cells are put. -/
  | put : Puts s table key cells (store (.put table key cells))
  /-- A row is stored. -/
  | putRow {name : String} {r : Row} (hrow : s.kept.get? name = some (.row r))
    (hputs : s.client.Puts r table key cells) : Puts s table key cells (putRow name)
  /-- A row is inserted. -/
  | insertRow {name : String} {r : Row} (hrow : s.kept.get? name = some (.row r))
    (hputs : s.client.Puts r table key cells) : Puts s table key cells (insertRow name)

end Command

namespace Session

variable {α : Type}

/-- What a failure must not touch: the schemas, what is kept, and what the store holds. -/
def lasting (s : Session) : List LiveSchema × OrderedMap String Entity × Store :=
  (s.schemas, s.kept, s.client.contents)

/-- What leaves the contents of the client leaves all that lasts. -/
theorem leaves_onClient {op : Operation Client α} (h : Leaves Client.contents op) :
    Leaves lasting (onClient op) :=
  h.within fun s _ ht => congrArg (fun st => (s.schemas, s.kept, st)) ht

/-- What is atomic for the client is atomic for all that lasts. -/
theorem atomic_onClient {op : Operation Client α} (h : Atomic Client.contents op) :
    Atomic lasting (onClient op) :=
  h.within fun s _ ht => congrArg (fun st => (s.schemas, s.kept, st)) ht

/-- What leaves the contents of the store leaves all that lasts. -/
theorem leaves_onStore {op : Operation Store α} (h : Leaves Store.forgetCalls op) :
    Leaves lasting (onStore op) :=
  leaves_onClient (Client.leaves_onStore h)

/-- What is atomic for the store is atomic for all that lasts. -/
theorem atomic_onStore {op : Operation Store α} (h : Atomic Store.forgetCalls op) :
    Atomic lasting (onStore op) :=
  atomic_onClient (Client.atomic_onStore h)

theorem leaves_find (name : String) : Leaves id (find name) := by
  intro s
  unfold find
  split <;> rfl

theorem leaves_findTable (name : String) : Leaves id (findTable name) := by
  refine (leaves_find name).bind fun e => ?_
  cases e with
  | table t => exact .pure t
  | _ => exact .fail _

theorem leaves_findTables (names : List String) : Leaves id (findTables names) := by
  induction names with
  | nil => exact .pure []
  | cons name rest ih => exact (leaves_findTable name).bind fun _ => ih.bind fun _ => .pure _

theorem leaves_findRow (name : String) : Leaves id (findRow name) := by
  refine (leaves_find name).bind fun e => ?_
  cases e with
  | row r => exact .pure r
  | _ => exact .fail _

theorem leaves_findDraft (name : String) : Leaves id (findDraft name) := by
  refine (leaves_find name).bind fun e => ?_
  cases e with
  | draft d => exact .pure d
  | _ => exact .fail _

theorem leaves_findRequest (name : String) : Leaves id (findRequest name) := by
  refine (leaves_find name).bind fun e => ?_
  cases e with
  | request r place => exact .pure (r, place)
  | _ => exact .fail _

theorem leaves_schemaAt (place : Nat) : Leaves id (schemaAt place) :=
  Leaves.state.bind fun _ => .require _ _

theorem leaves_findSchema (name : String) : Leaves id (findSchema name) := by
  refine (leaves_find name).bind fun e => ?_
  cases e with
  | live place => exact (leaves_schemaAt place).bind fun _ => .pure _
  | frozen s => exact .pure _
  | _ => exact .fail _

/-- Looking up a live schema changes nothing. -/
theorem leaves_findLive (name : String) (refusal : Schema → Error) :
    Leaves id (findLive name refusal) := by
  refine (leaves_findSchema name).bind fun p => ?_
  split
  · exact .pure _
  · exact .fail _

theorem total_keep (name : Option String) (e : Entity) : Total (keep name e) := by
  cases name with
  | none => exact .pure ()
  | some name => exact .change _

theorem total_setSchema (place : Nat) (schema : LiveSchema) : Total (setSchema place schema) :=
  .change _

theorem total_newSchema (schema : LiveSchema) : Total (newSchema schema) :=
  fun s => ⟨s.schemas.length, _, rfl⟩

/-- To keep something and then to answer cannot fail. -/
theorem total_keep_answer (name : Option String) (e : Entity) (a : Answer) :
    Total (keep name e >>= fun _ => pure a) :=
  (total_keep name e).bind fun _ => .pure a

/-- An answer that is a row is kept without failing. -/
theorem atomic_answerRow (keepAs : Option String) (r : Row) : Atomic id (answerRow keepAs r) :=
  (Leaves.lift _).bind_atomic fun _ => (total_keep_answer _ _ _).atomic

/-- An answer that is a request is kept without failing. -/
theorem atomic_answerRequest (keepAs : Option String) (r : TableRequest) (place : Nat) :
    Atomic id (answerRequest keepAs r place) :=
  (leaves_schemaAt place).bind_atomic fun _ => (total_keep_answer _ _ _).atomic

/-- A command to the client changes the store in its last step that can fail, if at all. -/
theorem atomic_clientStep (c : ClientCommand) : Atomic lasting (clientStep c) := by
  cases c with
  | createTable table families =>
    exact (atomic_onClient (Client.atomic_createTable table families)).bind_total fun _ => .pure _
  | dropTable table =>
    exact (atomic_onClient (Client.atomic_dropTable table)).bind_total fun _ => .pure _
  | tableExists table =>
    exact ((leaves_onClient (Client.leaves_tableExists table)).bind fun _ => .pure _).atomic
  | tableFamilies table =>
    exact ((leaves_onClient (Client.leaves_tableFamilies table)).bind fun _ => .pure _).atomic
  | getRow table key =>
    exact ((leaves_onClient (Client.leaves_getRow table key)).bind fun _ => .pure _).atomic
  | deleteRow table key =>
    exact (atomic_onClient (Client.atomic_deleteRow table key)).bind_total fun _ => .pure _
  | abilities => exact (Leaves.pure _).atomic

theorem total_closeStore : Total closeStore := by
  have hclose : Total (onStore Store.close) := by
    unfold onStore onClient Client.onStore
    exact Total.within (Total.within Store.total_close)
  refine hclose.bind fun _ => Total.state.bind fun s => ?_
  split <;> exact .pure _

/-- Inspecting the store changes nothing. -/
theorem leaves_inspectStore : Leaves id inspectStore := by
  refine Leaves.state.bind fun s => ?_
  split
  · exact .pure _
  · exact .fail _

/-- A command to the store that is no put changes what lasts only if it succeeds. -/
theorem atomic_storeStep {c : StoreCommand} (hc : (Command.store c).isPut = false) :
    Atomic lasting (storeStep c) := by
  cases c with
  | createTable table families =>
    exact (atomic_onStore (Store.atomic_createTable table _)).bind_total fun _ => .pure _
  | deleteTable table =>
    exact (atomic_onStore (Store.atomic_deleteTable table)).bind_total fun _ => .pure _
  | tableExists table =>
    exact ((leaves_onStore (Store.leaves_tableExists table)).bind fun _ => .pure _).atomic
  | tableFamilies table =>
    exact ((leaves_onStore (Store.leaves_tableFamilies table)).bind fun _ => .pure _).atomic
  | put table key cells => cases hc
  | get table key =>
    exact ((leaves_onStore (Store.leaves_get table key)).bind fun _ => .pure _).atomic
  | delete table key =>
    exact (atomic_onStore (Store.atomic_delete table key)).bind_total fun _ => .pure _
  | close => exact total_closeStore.atomic
  | inspect => exact leaves_inspectStore.every.atomic
  | mergeRow table row cells =>
    exact (atomic_onStore (Store.atomic_mergeRow table row cells)).bind_total fun _ => .pure _

/-- No command but a put can fail once it has changed a schema, something kept or the store. -/
theorem atomic_step {c : Command} (hc : c.isPut = false) : Atomic lasting (step c) := by
  cases c with
  | makeTable keepAs schemaName name columns families =>
    exact (Leaves.lift _).bind_atomic fun _ => (Leaves.lift _).bind_atomic fun _ =>
      (total_keep_answer _ _ _).atomic
  | getColumn table name => exact ((leaves_findTable table).every.bind fun _ => .pure _).atomic
  | hasColumn table column =>
    exact ((leaves_findTable table).every.bind fun _ =>
      (Leaves.lift _).bind fun _ => .pure _).atomic
  | liveSchema keepAs name tables =>
    exact (leaves_findTables tables).every.bind_atomic fun _ =>
      ((total_newSchema _).bind fun _ => total_keep_answer _ _ _).atomic
  | frozenSchema keepAs name tables =>
    exact (leaves_findTables tables).every.bind_atomic fun _ => (total_keep_answer _ _ _).atomic
  | freeze keepAs schema =>
    exact (leaves_findSchema schema).every.bind_atomic fun _ => (total_keep_answer _ _ _).atomic
  | showSchema schema => exact ((leaves_findSchema schema).every.bind fun _ => .pure _).atomic
  | getTable keepAs schema table =>
    refine (leaves_findSchema schema).every.bind_atomic fun _ => ?_
    split
    · exact (total_keep_answer _ _ _).atomic
    · exact (Leaves.pure _).atomic
  | addTable schema table =>
    exact (leaves_findLive schema _).every.bind_atomic fun _ =>
      (leaves_findTable table).every.bind_atomic fun _ =>
        ((total_setSchema _ _).bind fun _ => .pure _).atomic
  | removeTable schema table =>
    exact (leaves_findLive schema _).every.bind_atomic fun _ =>
      ((total_setSchema _ _).bind fun _ => .pure _).atomic
  | request keepAs schema table families =>
    exact (leaves_findLive schema _).every.bind_atomic fun _ =>
      (Leaves.lift _).bind_atomic fun _ => (atomic_answerRequest _ _ _).every
  | setFamilies request families =>
    exact (leaves_findRequest request).every.bind_atomic fun _ =>
      (Leaves.lift _).bind_atomic fun _ => (atomic_answerRequest _ _ _).every
  | withColumn request name dataType =>
    exact (leaves_findRequest request).every.bind_atomic fun _ =>
      (Leaves.lift _).bind_atomic fun _ => (atomic_answerRequest _ _ _).every
  | showRequest request =>
    exact (leaves_findRequest request).every.bind_atomic fun _ =>
      (atomic_answerRequest _ _ _).every
  | execute keepAs request =>
    exact (leaves_findRequest request).every.bind_atomic fun _ =>
      (leaves_schemaAt _).every.bind_atomic fun _ =>
        (atomic_onClient (TableRequest.atomic_execute _ _)).bind_total fun _ =>
          (total_setSchema _ _).bind fun _ => (total_keep _ _).bind fun _ =>
            total_keep_answer _ _ _
  | draft keepAs table =>
    exact (leaves_findTable table).every.bind_atomic fun _ => (total_keep_answer _ _ _).atomic
  | stageId draft v =>
    exact (leaves_findDraft draft).every.bind_atomic fun _ =>
      (Leaves.lift _).bind_atomic fun _ => (total_keep_answer _ _ _).atomic
  | stage draft column v =>
    exact (leaves_findDraft draft).every.bind_atomic fun _ =>
      (Leaves.lift _).bind_atomic fun _ => (total_keep_answer _ _ _).atomic
  | build keepAs draft =>
    exact (leaves_findDraft draft).every.bind_atomic fun _ => (atomic_answerRow _ _).every
  | rowOfCells keepAs table id cells =>
    exact (leaves_findTable table).every.bind_atomic fun _ =>
      (Leaves.lift _).bind_atomic fun _ => (atomic_answerRow _ _).every
  | rowOfValues keepAs table values =>
    exact (leaves_findTable table).every.bind_atomic fun _ =>
      (Leaves.lift _).bind_atomic fun _ => (atomic_answerRow _ _).every
  | rowFamilies row => exact ((leaves_findRow row).every.bind fun _ => .pure _).atomic
  | insertRow row | putRow row => cases hc
  | deleteById table id =>
    exact (leaves_findTable table).every.bind_atomic fun _ =>
      (atomic_onClient (Client.atomic_deleteById _ id)).bind_total fun _ => .pure _
  | dropTable schema table =>
    exact (leaves_findLive schema _).every.bind_atomic fun _ =>
      (atomic_onClient (Client.atomic_dropFrom _ table)).bind_total fun _ =>
        (total_setSchema _ _).bind fun _ => .pure _
  | client c => exact atomic_clientStep c
  | store c => exact atomic_storeStep hc

/-- A command that is no put leaves all that lasts when it fails. -/
theorem lasting_perform_of_error {c : Command} (hc : c.isPut = false) {s : Session} {e : Error}
    (h : (perform c s).1.result = .error e) : lasting (perform c s).2 = lasting s := by
  have hquiet : lasting s.quiet = lasting s :=
    congrArg (fun st => (s.schemas, s.kept, st)) (Store.forgetCalls_forgetCalls _)
  exact (atomic_step hc s.quiet e _ (Prod.ext h rfl)).trans hquiet

/-- A row that is found is kept under the name. -/
theorem kept_of_findRow {s s' : Session} {name : String} {r : Row}
    (h : findRow name s = (.ok r, s')) : s.kept.get? name = some (.row r) ∧ s' = s := by
  obtain ⟨e, s₁, hfind, hrow⟩ := bind_eq_ok h
  unfold find at hfind
  split at hfind
  · rename_i hkept
    cases hfind
    cases e with
    | row r' =>
      cases hrow
      exact ⟨hkept, rfl⟩
    | _ => cases hrow
  · cases hfind

/-- Work of the client on a row that is kept changes the session only as the client changes. -/
theorem eq_error_of_rowStep {s s' : Session} {name : String} {op : Row → Operation Client String}
    {e : Error}
    (h : (do
      let r ← findRow name
      return Answer.text (← onClient (op r))) s = (.error e, s')) :
    s' = s ∨ ∃ r c, s.kept.get? name = some (.row r) ∧ op r s.client = (.error e, c) ∧
      s' = { s with client := c } := by
  rcases bind_eq_error h with hfind | ⟨r, s₁, hfind, h₁⟩
  · exact .inl ((leaves_findRow name).of_eq hfind)
  · obtain ⟨hrow, rfl⟩ := kept_of_findRow hfind
    rcases bind_eq_error h₁ with hclient | ⟨_, _, -, hgive⟩
    · obtain ⟨c, hop, rfl⟩ := within_eq hclient
      exact .inr ⟨r, c, hrow, hop, rfl⟩
    · cases hgive

/-- What is left when a command fails: the schemas and all that is kept, and the contents of the
store but for a half put. -/
structure LeftBy (c : Command) (e : Error) (s s' : Session) : Prop where
  /-- The schemas are as they were. -/
  schemas : s'.schemas = s.schemas
  /-- All that is kept is as it was. -/
  kept : s'.kept = s.kept
  /-- So is the store, or the command has put a part of its cells. -/
  store : s'.client.store.forgetCalls = s.client.store.forgetCalls ∨
    ∃ table key cells, c.Puts s table key cells ∧
      Store.HalfPut table key cells e s.client.store s'.client.store

/-- A failure that leaves all that lasts leaves a session as it has to. -/
theorem leftBy_of_lasting {c : Command} {e : Error} {s s' : Session} (h : lasting s' = lasting s) :
    LeftBy c e s s' := by
  simp only [lasting, Prod.mk.injEq] at h
  exact ⟨h.1, h.2.1, .inl h.2.2⟩

/-- A row whose storing failed is put in part, or not at all. -/
theorem leftBy_of_putRow {c : Command} {e : Error} {s : Session} {r : Row} {c' : Client}
    (hputs : ∀ key cells, s.client.Puts r r.table.name key cells →
      c.Puts s r.table.name key cells)
    (h : Client.putRow r s.client = (.error e, c')) : LeftBy c e s { s with client := c' } where
  schemas := rfl
  kept := rfl
  store := (Client.putRow_eq_error h).imp id fun ⟨key, cells, hrow, hhalf⟩ =>
    ⟨_, key, cells, hputs key cells hrow, hhalf⟩

/-- A failed step leaves a session as it has to. -/
theorem leftBy_of_step {c : Command} {e : Error} {s s' : Session}
    (h : step c s = (.error e, s')) : LeftBy c e s s' := by
  cases hc : c.isPut with
  | false => exact leftBy_of_lasting (atomic_step hc s e s' h)
  | true =>
    unfold Command.isPut at hc
    split at hc
    · rename_i table key cells
      rcases bind_eq_error h with hstore | ⟨_, _, -, hgive⟩
      · unfold onStore at hstore
        obtain ⟨client, hclient, rfl⟩ := within_eq hstore
        obtain ⟨st, hput, rfl⟩ := within_eq hclient
        exact ⟨rfl, rfl, (Store.put_eq_error hput).imp id fun hhalf => ⟨_, _, _, .put, hhalf⟩⟩
      · cases hgive
    · rcases eq_error_of_rowStep h with rfl | ⟨r, client, hrow, hput, rfl⟩
      · exact leftBy_of_lasting rfl
      · exact leftBy_of_putRow (fun _ _ => .putRow hrow) hput
    · rcases eq_error_of_rowStep h with rfl | ⟨r, client, hrow, hinsert, rfl⟩
      · exact leftBy_of_lasting rfl
      · exact leftBy_of_putRow (fun _ _ => .insertRow hrow) (Client.insertRow_eq_error hinsert)
    · cases hc

/-- A failed command leaves every schema and everything that is kept as it was, and so the contents
of the store, unless it puts a value that cannot be copied into memory. -/
theorem leftBy_of_failure (s : Session) (c : Command) (e : Error)
    (h : (perform c s).1.result = .error e) : LeftBy c e s (perform c s).2 := by
  have hstep : step c s.quiet = (.error e, (perform c s).2) := Prod.ext h rfl
  obtain ⟨hschemas, hkept, hstore⟩ := leftBy_of_step hstep
  have hquiet : s.quiet.client.store.forgetCalls = s.client.store.forgetCalls :=
    Store.forgetCalls_forgetCalls _
  refine ⟨hschemas, hkept, hstore.imp (·.trans hquiet) fun ⟨table, key, cells, hputs, hhalf⟩ =>
    ⟨table, key, cells, ?_, ?_⟩⟩
  · cases hputs with
    | put => exact .put
    | putRow hrow hputs => exact .putRow hrow ⟨hputs.table, hputs.cells, hputs.newKey, hputs.ownKey⟩
    | insertRow hrow hputs =>
      exact .insertRow hrow ⟨hputs.table, hputs.cells, hputs.newKey, hputs.ownKey⟩
  · obtain ⟨m, rows, hm, hlaid⟩ := hhalf.laid
    exact ⟨hhalf.uncopied, hhalf.cause, m, rows, Store.eq_memory_of_forgetCalls hm.symm, hlaid⟩

/-- Cells for a family that the table has and for one that it lacks are refused as a whole. -/
theorem unchanged_of_unknown_family :
    let s := (withSchema (.memory .empty) "S" "s").after
      [.request (some "b") "S" (some "t") (.names ["f"]), .execute none "b"]
    let cells : Cells := OrderedMap.ofList
      [("f", OrderedMap.ofList [("q", .int 1)]), ("g", OrderedMap.ofList [("q", .int 2)])]
    let c := Command.store (.put "t" "k" cells)
    (perform c s).1.result = .error (.unknownCellFamilies ["g"] "t") ∧
      (perform c s).2.schemas = s.schemas ∧ (perform c s).2.kept = s.kept ∧
      (perform c s).2.client.store.forgetCalls = s.client.store.forgetCalls := by
  intro s cells c
  obtain ⟨hschemas, hkept, hstore⟩ := leftBy_of_failure s c _ rfl
  refine ⟨rfl, hschemas, hkept, hstore.resolve_right ?_⟩
  rintro ⟨_, _, _, -, hhalf⟩
  cases hhalf.cause

/-- A put that comes to a value that cannot be copied fails, and the store is not as it was. -/
theorem changed_by_half_put :
    let s := (withSchema (.memory .empty) "S" "s").after
      [.request (some "b") "S" (some "t") (.names ["f", "g"]), .execute none "b"]
    let cells : Cells := OrderedMap.ofList [("f", OrderedMap.ofList [("a", .int 1)]),
      ("g", OrderedMap.ofList [("b", .handle "memoryview" "<memory>")])]
    let c := Command.store (.put "t" "k" cells)
    (perform c s).1.result = .error .wrongKind ∧
      (perform c s).2.client.store.forgetCalls ≠ s.client.store.forgetCalls := by
  intro s cells c
  refine ⟨rfl, fun h => ?_⟩
  have hread := congrArg (fun st => (Store.get "t" "k" st).1) h
  cases hread

end Session

end WideColumn
