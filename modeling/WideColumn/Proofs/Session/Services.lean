import WideColumn.Proofs.Session.Atomicity
import WideColumn.Proofs.Store.Client

/-!
# Schema and store stay in step

A session with one schema whose store is only reached through requests, rows and
drops never lets the two drift apart: after any commands, failed ones included,
the schema lists exactly the tables of the store, in the order in which they
were made and with the same families. The invariant compares the two as ordered
maps; a request binds one table in both, a drop erases one from both, and all
other commands leave both alone.
-/

namespace WideColumn

open Operation OrderedMap

/-- The command reaches schemas and store only through requests, rows and drops, and makes no
further schema that could change. -/
def Command.isService : Command → Bool
  | .liveSchema .. | .addTable .. | .removeTable .. | .client _ | .store _ => false
  | _ => true

/-- The command neither makes nor drops a table. -/
def Command.sparesTables : Command → Bool
  | .execute .. | .dropTable .. => false
  | c => c.isService

/-- The table is the one that a schema made under a name. -/
structure Table.FiledAs (t : Table) (schemaName name : String) : Prop where
  /-- It has the name under which it is filed. -/
  name : t.name = name
  /-- It knows the schema. -/
  schemaName : t.schemaName = schemaName
  /-- Its columns lie in its families. -/
  closed : t.Closed

/-- The schema has the same tables as a store, in the same order and with the same families. -/
structure LiveSchema.Matches (S : LiveSchema) (holdings : OrderedMap String NameSet) : Prop where
  /-- With each table replaced by its families, the schema is what the store holds. -/
  holdings : S.byName.mapValues Table.families = holdings
  /-- Every table is filed under its own name. -/
  filed : ∀ name t, S.getTable name = some t → t.FiledAs S.name name

namespace LiveSchema.Matches

variable {S : LiveSchema} {holdings : OrderedMap String NameSet}

/-- A schema without tables matches a store without tables. -/
theorem empty (name : String) : Matches ⟨name, ∅⟩ ∅ where
  holdings := rfl
  filed _ _ h := nomatch h

/-- A table that is made in the store and added to the schema keeps them in step. -/
theorem addTable (h : S.Matches holdings) {t : Table} (ht : t.FiledAs S.name t.name) :
    (S.addTable t).Matches (holdings.insert t.name t.families) where
  holdings := by
    rw [← h.holdings]
    exact mapValues_insert Table.families S.byName t.name t
  filed name u hu := by
    rw [getTable_addTable] at hu
    split at hu
    · rename_i hn
      cases hu
      subst hn
      exact ht
    · exact h.filed name u hu

/-- A table that is dropped from the store and removed from the schema keeps them in step. -/
theorem removeTable (h : S.Matches holdings) (table : String) :
    (S.removeTable table).Matches (holdings.erase table) where
  holdings := by
    rw [← h.holdings]
    exact mapValues_erase Table.families S.byName table
  filed name u hu := by
    rw [getTable_removeTable] at hu
    split at hu
    · cases hu
    · exact h.filed name u hu

/-- The schema lists the tables of the store, in their order. -/
theorem tableNames (h : S.Matches holdings) : S.tableNames = holdings.keys := by
  rw [← h.holdings, keys_mapValues]
  rfl

/-- A table of the schema has the families that the store holds for it. -/
theorem families (h : S.Matches holdings) {name : String} {t : Table}
    (ht : S.getTable name = some t) : holdings.get? name = some t.families := by
  rw [← h.holdings, get?_mapValues]
  exact congrArg (Option.map Table.families) ht

end LiveSchema.Matches

namespace Session

variable {α : Type}

section RowWork

variable {P : List LiveSchema → Store → Prop}

/-- Keeping an entity touches neither the schemas nor the store. -/
theorem keeps_keep (name : Option String) (e : Entity) :
    Keeps (fun s : Session => P s.schemas s.client.store) (keep name e) := by
  cases name with
  | none => exact .pure ()
  | some name => exact fun _ hs => hs

theorem keeps_keep_answer (name : Option String) (e : Entity) (a : Answer) :
    Keeps (fun s : Session => P s.schemas s.client.store) (keep name e >>= fun _ => pure a) :=
  (keeps_keep name e).bind fun _ => .pure a

/-- An answer that is a row touches neither the schemas nor the store. -/
theorem keeps_answerRow (keepAs : Option String) (r : Row) :
    Keeps (fun s : Session => P s.schemas s.client.store) (answerRow keepAs r) :=
  (Keeps.lift _).bind fun _ => keeps_keep_answer _ _ _

/-- An answer that is a request touches neither the schemas nor the store. -/
theorem keeps_answerRequest (keepAs : Option String) (r : TableRequest) (place : Nat) :
    Keeps (fun s : Session => P s.schemas s.client.store) (answerRequest keepAs r place) :=
  (leaves_schemaAt place).keeps.bind fun _ => keeps_keep_answer _ _ _

/-- What the client keeps of its store is kept beside the schemas. -/
theorem keeps_onClient {op : Operation Client α}
    (h : ∀ Ss, Keeps (fun c => P Ss c.store) op) :
    Keeps (fun s : Session => P s.schemas s.client.store) (onClient op) :=
  fun s hs => h s.schemas s.client hs

/-- What survives work on rows survives every command that neither makes nor drops a table. -/
theorem keeps_step_of_sparesTables (hP : ∀ Ss, Store.RowStable (P Ss)) (c : Command)
    (hc : c.sparesTables = true) :
    Keeps (fun s : Session => P s.schemas s.client.store) (step c) := by
  cases c with
  | liveSchema | addTable | removeTable | execute | dropTable | client | store => cases hc
  | makeTable keepAs schemaName name columns families =>
    exact (Keeps.lift _).bind fun _ => (Keeps.lift _).bind fun _ => keeps_keep_answer _ _ _
  | getColumn table name => exact (leaves_findTable table).keeps.bind fun _ => .pure _
  | hasColumn table column =>
    exact (leaves_findTable table).keeps.bind fun _ => (Keeps.lift _).bind fun _ => .pure _
  | frozenSchema keepAs name tables =>
    exact (leaves_findTables tables).keeps.bind fun _ => keeps_keep_answer _ _ _
  | freeze keepAs schema =>
    exact (leaves_findSchema schema).keeps.bind fun _ => keeps_keep_answer _ _ _
  | showSchema schema => exact (leaves_findSchema schema).keeps.bind fun _ => .pure _
  | getTable keepAs schema table =>
    refine (leaves_findSchema schema).keeps.bind fun _ => ?_
    split
    · exact keeps_keep_answer _ _ _
    · exact .pure _
  | request keepAs schema table families =>
    exact (leaves_findLive schema _).keeps.bind fun _ => (Keeps.lift _).bind fun _ =>
      keeps_answerRequest _ _ _
  | setFamilies request families =>
    exact (leaves_findRequest request).keeps.bind fun _ => (Keeps.lift _).bind fun _ =>
      keeps_answerRequest _ _ _
  | withColumn request name dataType =>
    exact (leaves_findRequest request).keeps.bind fun _ => (Keeps.lift _).bind fun _ =>
      keeps_answerRequest _ _ _
  | showRequest request =>
    exact (leaves_findRequest request).keeps.bind fun _ => keeps_answerRequest _ _ _
  | draft keepAs table =>
    exact (leaves_findTable table).keeps.bind fun _ => keeps_keep_answer _ _ _
  | stageId draft v =>
    exact (leaves_findDraft draft).keeps.bind fun _ => (Keeps.lift _).bind fun _ =>
      keeps_keep_answer _ _ _
  | stage draft column v =>
    exact (leaves_findDraft draft).keeps.bind fun _ => (Keeps.lift _).bind fun _ =>
      keeps_keep_answer _ _ _
  | build keepAs draft =>
    exact (leaves_findDraft draft).keeps.bind fun _ => keeps_answerRow _ _
  | rowOfCells keepAs table id cells =>
    exact (leaves_findTable table).keeps.bind fun _ => (Keeps.lift _).bind fun _ =>
      keeps_answerRow _ _
  | rowOfValues keepAs table values =>
    exact (leaves_findTable table).keeps.bind fun _ => (Keeps.lift _).bind fun _ =>
      keeps_answerRow _ _
  | rowFamilies row => exact (leaves_findRow row).keeps.bind fun _ => .pure _
  | insertRow row =>
    exact (leaves_findRow row).keeps.bind fun _ =>
      (keeps_onClient fun Ss => Client.keeps_insertRow (hP Ss) _).bind fun _ => .pure _
  | putRow row =>
    exact (leaves_findRow row).keeps.bind fun _ =>
      (keeps_onClient fun Ss => Client.keeps_putRow (hP Ss) _).bind fun _ => .pure _
  | deleteById table id =>
    exact (leaves_findTable table).keeps.bind fun _ =>
      (keeps_onClient fun Ss => Client.keeps_deleteById (hP Ss) _ id).bind fun _ => .pure _

end RowWork

/-- There is one schema, of the given name, that matches the tables of the store; a memory store
has paired catalogues, and the store is still of the kind that it was. -/
def InStep (name : String) (inMemory : Bool) (Ss : List LiveSchema) (st : Store) : Prop :=
  (∃ S, Ss = [S] ∧ S.name = name ∧ S.Matches st.holdings) ∧ st.Paired ∧ st.isMemory = inMemory

/-- Rows do not matter to whether schema and store are in step. -/
theorem rowStable_inStep (name : String) (inMemory : Bool) (Ss : List LiveSchema) :
    Store.RowStable (InStep name inMemory Ss) :=
  (Store.rowStable_holdings fun h => ∃ S, Ss = [S] ∧ S.name = name ∧ S.Matches h).and
    (Store.rowStable_paired.and (Store.rowStable_isMemory inMemory))

variable {name : String} {inMemory : Bool}

/-- Among one schema only the first place is taken. -/
theorem schemaAt_eq_ok {s s' : Session} {place : Nat} {S S' : LiveSchema} (h : s.schemas = [S])
    (hs : schemaAt place s = (.ok S', s')) : place = 0 ∧ S' = S ∧ s' = s := by
  have happly : schemaAt place s = (Operation.require s.schemas[place]? .missingKey) s := rfl
  rw [happly, h] at hs
  cases place with
  | zero =>
    cases hs
    exact ⟨rfl, rfl, rfl⟩
  | succ n => cases hs

/-- What survives work on rows and concerns the kind of a store alone. -/
theorem rowStable_kind : Store.RowStable fun st => st.Paired ∧ st.isMemory = inMemory :=
  Store.rowStable_paired.and (Store.rowStable_isMemory inMemory)

/-- Making tables keeps the catalogues of a store paired and the store of its kind. -/
theorem keeps_kind_createTable (table : String) (fs : NameSet) :
    Keeps (fun st => st.Paired ∧ st.isMemory = inMemory) (Store.createTable table fs) :=
  fun st h => ⟨Store.keeps_paired_createTable table fs st h.1,
    (Store.leaves_isMemory_onEither _ _ st).trans h.2⟩

/-- Dropping tables keeps the catalogues of a store paired and the store of its kind. -/
theorem keeps_kind_deleteTable (table : String) :
    Keeps (fun st => st.Paired ∧ st.isMemory = inMemory) (Store.deleteTable table) :=
  fun st h => ⟨Store.keeps_paired_deleteTable table st h.1,
    (Store.leaves_isMemory_onEither _ _ st).trans h.2⟩

/-- An operation of the client on a schema that gives a new schema: it fails without a trace, or the
new schema matches the tables that the store then holds. -/
structure Advances (op : LiveSchema → Operation Client α) (given : α → LiveSchema) : Prop where
  /-- A failure leaves the contents of the store. -/
  atomic : ∀ S, Atomic Client.contents (op S)
  /-- The store stays of its kind, with its catalogues paired. -/
  kind : ∀ S b, Keeps (fun c => c.store.Paired ∧ c.store.isMemory = b) (op S)
  /-- The new schema has the name of the old one and matches what the store holds. -/
  advance : ∀ S c a c', S.Matches c.store.holdings → op S c = (.ok a, c') →
    (given a).name = S.name ∧ (given a).Matches c'.store.holdings

/-- Carrying out a request binds its table in the schema and in the store. -/
theorem advances_execute (r : TableRequest) : Advances r.execute fun a => a.2.1 where
  atomic := r.atomic_execute
  kind S _ := TableRequest.keeps_execute (fun name fs _ => keeps_kind_createTable name fs) S
  advance S c a c' hmatch hr := by
    obtain ⟨t, S', r'⟩ := a
    obtain ⟨n, fs, -, -, hvalid, rfl, rfl, -, hhold⟩ := TableRequest.execute_eq_ok hr
    have hfiled : (r.table S.name n fs).FiledAs S.name n :=
      ⟨rfl, rfl, TableRequest.closed_table hvalid S.name n⟩
    rw [hhold]
    exact ⟨rfl, hmatch.addTable hfiled⟩

/-- Dropping a table erases it from the schema and from the store. -/
theorem advances_dropFrom (table : String) :
    Advances (fun S => Client.dropFrom S table) fun S => S where
  atomic S := Client.atomic_dropFrom S table
  kind S _ := Client.keeps_dropFrom rowStable_kind (keeps_kind_deleteTable table) S
  advance S c a c' hmatch hr := by
    obtain ⟨rfl, hhold⟩ := Client.dropFrom_eq_ok hr
    rw [hhold]
    exact ⟨rfl, hmatch.removeTable table⟩

namespace Advances

variable {op : LiveSchema → Operation Client α} {given : α → LiveSchema}
variable {S : LiveSchema} {c c' : Client}

/-- A failure leaves schema and store in step. -/
theorem inStep_of_error (hop : Advances op given) {e : Error}
    (h : InStep name inMemory [S] c.store) (hr : op S c = (.error e, c')) :
    InStep name inMemory [S] c'.store := by
  obtain ⟨⟨S₀, hS, hname, hmatch⟩, hkind⟩ := h
  have hcontents : c'.store.forgetCalls = c.store.forgetCalls := hop.atomic S c e c' hr
  have hhold : c'.store.holdings = c.store.holdings := by
    rw [← Store.holdings_forgetCalls, hcontents, Store.holdings_forgetCalls]
  have hkind' := hop.kind S inMemory c hkind
  rw [hr] at hkind'
  exact ⟨⟨S₀, hS, hname, hhold ▸ hmatch⟩, hkind'⟩

/-- Success leaves the new schema in step with the store. -/
theorem inStep_of_ok (hop : Advances op given) {a : α} (h : InStep name inMemory [S] c.store)
    (hr : op S c = (.ok a, c')) : InStep name inMemory [given a] c'.store := by
  obtain ⟨⟨S₀, hS, hname, hmatch⟩, hkind⟩ := h
  cases hS
  obtain ⟨hsame, hmatch'⟩ := hop.advance S c a c' hmatch hr
  have hkind' := hop.kind S inMemory c hkind
  rw [hr] at hkind'
  exact ⟨⟨given a, rfl, hsame.trans hname, hmatch'⟩, hkind'⟩

/-- A session that puts the new schema in the place of the old one stays in step. -/
theorem inStep_setSchema (hop : Advances op given) {rest : α → Operation Session Answer}
    (hrest : ∀ a, Keeps (fun s => InStep name inMemory s.schemas s.client.store) (rest a))
    {s s₁ : Session} {place : Nat} (hs : InStep name inMemory s.schemas s.client.store)
    (hplace : schemaAt place s = (.ok S, s₁)) :
    let s' := ((onClient (op S) >>= fun a => setSchema place (given a) >>= fun _ => rest a) s).2
    InStep name inMemory s'.schemas s'.client.store := by
  obtain ⟨⟨S₀, hS, -⟩, -⟩ := id hs
  obtain ⟨rfl, rfl, -⟩ := schemaAt_eq_ok hS hplace
  have hone : InStep name inMemory [S] s.client.store := hS ▸ hs
  have hclient : onClient (op S) s = ((op S s.client).1, { s with client := (op S s.client).2 }) :=
    rfl
  rcases hr : op S s.client with ⟨e | a, c'⟩
  · rw [hr] at hclient
    rw [bind_of_error hclient]
    exact hS.symm ▸ hop.inStep_of_error hone hr
  · rw [hr] at hclient
    rw [bind_of_ok hclient]
    have hset : setSchema 0 (given a) { s with client := c' } =
        (.ok (), { s with client := c', schemas := [given a] }) := by
      simp only [setSchema, Operation.change, hS]
      rfl
    rw [bind_of_ok hset]
    exact hrest a _ (hop.inStep_of_ok hone hr)

end Advances

/-- A live schema that is found is the one at the place that is given with it. -/
theorem schemaAt_of_findLive {schema : String} {refusal : Schema → Error} {s s' : Session}
    {S : LiveSchema} {place : Nat} (h : findLive schema refusal s = (.ok (S, place), s')) :
    schemaAt place s = (.ok S, s) := by
  obtain ⟨⟨found, at?⟩, s₁, hfind, hgive⟩ := bind_eq_ok h
  obtain ⟨e, s₂, hlook, hentity⟩ := bind_eq_ok hfind
  have hs₂ : s₂ = s := by
    have := leaves_find schema s
    rwa [hlook] at this
  subst hs₂
  cases e with
  | live p =>
    obtain ⟨S', s₃, hat, hpair⟩ := bind_eq_ok hentity
    have hs₃ : s₃ = s₂ := by
      have := leaves_schemaAt p s₂
      rwa [hat] at this
    subst hs₃
    cases hpair
    cases hgive
    exact hat
  | frozen S' =>
    cases hentity
    cases hgive
  | table | request | draft | row => cases hentity

/-- Carrying out a request keeps schema and store in step. -/
theorem inStep_execute (keepAs : Option String) (request : String) :
    Keeps (fun s => InStep name inMemory s.schemas s.client.store)
      (step (.execute keepAs request)) := by
  have hstep : step (.execute keepAs request) =
      findRequest request >>= fun p => schemaAt p.2 >>= fun S =>
        onClient (p.1.execute S) >>= fun a => setSchema p.2 a.2.1 >>= fun _ =>
          keep (some request) (.request a.2.2 p.2) >>= fun _ =>
            keep keepAs (.table a.1) >>= fun _ => pure (.table (some a.1)) := rfl
  rw [hstep]
  refine (leaves_findRequest request).keeps.bind fun p => ?_
  refine (leaves_schemaAt p.2).bind_keeps fun S s hplace hs => ?_
  exact (advances_execute p.1).inStep_setSchema
    (fun a => (keeps_keep _ _).bind fun _ => keeps_keep_answer _ _ _) hs hplace

/-- Dropping a table through a schema keeps schema and store in step. -/
theorem inStep_dropTable (schema table : String) :
    Keeps (fun s => InStep name inMemory s.schemas s.client.store)
      (step (.dropTable schema table)) := by
  have hstep : step (.dropTable schema table) =
      findLive schema notLive >>= fun p => onClient (Client.dropFrom p.1 table) >>= fun S =>
        setSchema p.2 S >>= fun _ => pure .nothing := rfl
  rw [hstep]
  refine (leaves_findLive schema notLive).bind_keeps fun p s hlive hs => ?_
  exact (advances_dropFrom table).inStep_setSchema (fun _ => .pure _) hs
    (schemaAt_of_findLive hlive)

/-- Every service command keeps schema and store in step. -/
theorem inStep_step (c : Command) (hc : c.isService = true) :
    Keeps (fun s => InStep name inMemory s.schemas s.client.store) (step c) := by
  cases hspares : c.sparesTables with
  | true => exact keeps_step_of_sparesTables (rowStable_inStep name inMemory) c hspares
  | false =>
    cases c with
    | execute keepAs request => exact inStep_execute keepAs request
    | dropTable schema table => exact inStep_dropTable schema table
    | _ => cases hspares.symm.trans hc

/-- So does a service command with its own log and record of calls. -/
theorem inStep_perform {s : Session} {c : Command} (hc : c.isService = true)
    (h : InStep name inMemory s.schemas s.client.store) :
    InStep name inMemory (perform c s).2.schemas (perform c s).2.client.store :=
  inStep_step c hc s.quiet ((rowStable_inStep name inMemory _).forgetCalls _ h)

/-- A run of service commands keeps schema and store in step, by induction on the commands. -/
theorem inStep_after {cs : List Command} (hcs : ∀ c ∈ cs, c.isService = true) {s : Session}
    (h : InStep name inMemory s.schemas s.client.store) :
    InStep name inMemory (s.after cs).schemas (s.after cs).client.store := by
  induction cs generalizing s with
  | nil => exact h
  | cons c cs ih =>
    have hc := hcs c (List.mem_cons_self ..)
    exact ih (fun d hd => hcs d (List.mem_cons_of_mem c hd)) (inStep_perform hc h)

/-- A session that starts on a fresh store with an empty schema keeps the two in step. -/
theorem inStep_of_fresh {st : Store} (hst : st.Fresh) (handle name : String) {cs : List Command}
    (hcs : ∀ c ∈ cs, c.isService = true) :
    InStep name st.isMemory ((withSchema st handle name).after cs).schemas
      ((withSchema st handle name).after cs).client.store := by
  apply inStep_after hcs
  have hschemas : (withSchema st handle name).schemas = [⟨name, ∅⟩] := rfl
  have hstore : (withSchema st handle name).client.store = st.forgetCalls := rfl
  rw [hschemas, hstore]
  refine ⟨⟨_, rfl, rfl, ?_⟩, ?_⟩
  · rw [Store.holdings_forgetCalls, hst.holdings]
    exact LiveSchema.Matches.empty name
  · exact rowStable_kind.forgetCalls st ⟨hst.paired, rfl⟩

/-- After any service commands on a fresh store, failed ones included, the schema lists exactly the
tables of the store, in their order, with the families that it holds. -/
theorem schema_tables_are_held {st : Store} (hst : st.Fresh) (handle name : String)
    {cs : List Command} (hcs : ∀ c ∈ cs, c.isService = true) :
    let s := (withSchema st handle name).after cs
    ∃ S, s.schemas = [S] ∧ S.name = name ∧ S.tableNames = s.client.store.holdings.keys ∧
      S.tableNames.Nodup ∧
      ∀ t ∈ S.tableNames, ∃ T, S.getTable t = some T ∧ T.name = t ∧ T.schemaName = S.name ∧
        s.client.store.holdings.get? t = some T.families := by
  intro s
  obtain ⟨⟨S, hS, hname, hmatch⟩, -⟩ := inStep_of_fresh hst handle name hcs
  refine ⟨S, hS, hname, hmatch.tableNames, S.byName.nodup_keys, fun t ht => ?_⟩
  obtain ⟨T, hT⟩ : ∃ T, S.getTable t = some T := get?_of_mem_keys ht
  have hfiled := hmatch.filed t T hT
  exact ⟨T, hT, hfiled.name, hfiled.schemaName, hmatch.families hT⟩

/-- On a server two requests for one table are both carried out, the second in place of the first; a
table that is dropped and made again comes last, and what cannot be done changes nothing. -/
theorem schema_tables_are_held_after_redo :
    let st : Store := .gateway (.withTables .text ":" false [])
    let cs : List Command :=
      [.request (some "a") "S" (some "t") (.names ["f"]),
        .request (some "b") "S" (some "t") (.names ["g"]), .execute none "a", .execute none "b",
        .request (some "c") "S" (some "u") (.names ["h"]), .withColumn "c" "x:q" none,
        .execute none "c", .setFamilies "c" (.names ["x"]), .execute none "c", .execute none "c",
        .dropTable "S" "t", .dropTable "S" "t", .request (some "d") "S" (some "t") (.names ["k"]),
        .execute none "d"]
    let s := (withSchema st "S" "s").after cs
    s.client.store.holdings.keys = ["u", "t"] ∧
      ∃ S, s.schemas = [S] ∧ S.name = "s" ∧ S.tableNames = s.client.store.holdings.keys ∧
        S.tableNames.Nodup ∧
        ∀ t ∈ S.tableNames, ∃ T, S.getTable t = some T ∧ T.name = t ∧ T.schemaName = S.name ∧
          s.client.store.holdings.get? t = some T.families :=
  ⟨rfl, schema_tables_are_held (.gateway ..) "S" "s" (by decide)⟩

end Session

end WideColumn
