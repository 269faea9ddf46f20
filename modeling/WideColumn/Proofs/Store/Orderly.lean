import WideColumn.Proofs.Row.Unreadable
import WideColumn.Proofs.Store.Calls
import WideColumn.Proofs.Store.Checks
import WideColumn.Proofs.Store.Client
import WideColumn.Proofs.Store.MemoryClient

/-!
# Orderly clients

Whatever a client is asked, a server gets proper calls from it and nothing else.
What is wrong with a request is found before the first call, and what is found
after a call is never that a look-up went wrong. This is proved for one operation
of a client after the other; a composition makes the calls of its steps in turn.
-/

namespace WideColumn

open Operation OrderedMap

/-- A cause that no check of the request could find: the caller is not refused. Nor has a look-up
found nothing, since a table is looked up only where there is one. -/
structure Error.Unforeseen (e : Error) : Prop where
  /-- It is not that a look-up found nothing. -/
  found : e ≠ .missingKey
  /-- It is no refusal. -/
  unrefused : e.isRefusal = false

/-- A cause in due order: it is not that a look-up found nothing, and a refusal comes before all
calls. -/
structure Error.Timely (calls : List Call) (e : Error) : Prop where
  /-- It is not that a look-up found nothing. -/
  found : e ≠ .missingKey
  /-- A refusal comes before all calls. -/
  refused : e.isRefusal = true → calls = []

namespace Error

/-- A failure in reading a value could not be foreseen. -/
theorem unforeseen_of_ofReading {e : Error} (h : e.ofReading = true) : e.Unforeseen where
  found := ne_missingKey_of_ofReading h
  unrefused := by rw [isRefusal, category_of_ofReading h]

theorem unforeseen_noSuchTable (table : String) : (noSuchTable table).Unforeseen :=
  ⟨nofun, rfl⟩

/-- A cause that could not be foreseen is in due order after any calls. -/
theorem Unforeseen.timely {e : Error} (h : e.Unforeseen) (calls : List Call) :
    e.Timely calls where
  found := h.found
  refused hrefusal := nomatch h.unrefused.symm.trans hrefusal

/-- Before all calls any cause of the library's own is in time. -/
theorem timely_of_own {α : Type} {r : Except Error α} {e : Error} (h : OwnFailures r)
    (he : r = .error e) : e.Timely [] where
  found := by
    rintro rfl
    cases h _ he
  refused _ := rfl

end Error

namespace Client

variable {α β : Type} {P : Server → Prop} {E : List Call → Error → Prop} {E' : Error → Prop}
variable {table key : String}

/-- On a server that satisfies `P`, the operation makes proper calls, the server is left as these
calls leave it, and a failure after these calls has a cause in `E`. -/
def Orderly (P : Server → Prop) (E : List Call → Error → Prop) (op : Operation Client α) : Prop :=
  ∀ c s, c.store = .gateway s → P s →
    ∃ calls, (op c).2.store = .gateway (s.replay calls) ∧ s.ProperFrom calls ∧
      ∀ e, (op c).1 = .error e → E calls e

/-- Any server will do. -/
abbrev Anywhere : Server → Prop := fun _ => True

namespace Orderly

/-- An orderly operation may be held to less. -/
theorem imp {F : List Call → Error → Prop} {op : Operation Client α} (h : Orderly P E op)
    (hE : ∀ calls e, E calls e → F calls e) : Orderly P F op := by
  intro c s hc hs
  obtain ⟨calls, hstore, hproper, hcause⟩ := h c s hc hs
  exact ⟨calls, hstore, hproper, fun e he => hE calls e (hcause e he)⟩

/-- An operation that never refuses does so in time. -/
theorem timely {op : Operation Client α} (h : Orderly P (fun _ => Error.Unforeseen) op) :
    Orderly P Error.Timely op :=
  h.imp fun calls _ he => he.timely calls

/-- An operation that leaves the store makes no calls. -/
theorem of_leaves {op : Operation Client α} (h : Leaves Client.store op)
    (hcause : ∀ c e, (op c).1 = .error e → E [] e) : Orderly P E op := by
  intro c s hc _
  refine ⟨[], ?_, trivial, hcause c⟩
  rw [h c, hc]
  rfl

theorem pure (a : α) : Orderly P E (Pure.pure a : Operation Client α) :=
  .of_leaves (.pure a) fun _ _ h => nomatch h

theorem fail {e : Error} (h : E [] e) : Orderly P E (Operation.fail e : Operation Client α) := by
  refine .of_leaves (.fail e) fun c e' he => ?_
  cases he
  exact h

theorem note (level : Level) (message : String) : Orderly P E (Client.note level message) :=
  .of_leaves (fun _ => rfl) fun _ _ h => nomatch h

theorem ite {b : Prop} [Decidable b] {op op' : Operation Client α} (h : Orderly P E op)
    (h' : Orderly P E op') : Orderly P E (if b then op else op') := by
  split
  · exact h
  · exact h'

/-- The calls of a composition are those of its steps, one after the other. -/
theorem bind {op : Operation Client α} {f : α → Operation Client β}
    (h : Orderly P (fun _ => E') op) (hf : ∀ a, Orderly Anywhere (fun _ => E') (f a)) :
    Orderly P (fun _ => E') (op >>= f) := by
  intro c s hc hs
  obtain ⟨calls, hstore, hproper, hcause⟩ := h c s hc hs
  rcases hr : op c with ⟨e | a, c'⟩ <;> rw [hr] at hstore hcause
  · rw [bind_of_error hr]
    refine ⟨calls, hstore, hproper, fun e' he' => ?_⟩
    cases he'
    exact hcause e rfl
  · obtain ⟨more, hstore', hproper', hcause'⟩ := hf a c' _ hstore trivial
    rw [bind_of_ok hr]
    refine ⟨calls ++ more, ?_, hproper.append hproper', hcause'⟩
    rw [hstore', Server.replay_append]

/-- After a step that leaves the store, the server still satisfies what it satisfied, and there have
been no calls. -/
theorem bind_of_leaves {op : Operation Client α} {f : α → Operation Client β}
    (h : Leaves Client.store op) (hcause : ∀ c e, (op c).1 = .error e → E [] e)
    (hf : ∀ a, Orderly P E (f a)) : Orderly P E (op >>= f) := by
  intro c s hc hs
  have hstore : (op c).2.store = .gateway s := (h c).trans hc
  rcases hr : op c with ⟨e | a, c'⟩ <;> rw [hr] at hstore
  · rw [bind_of_error hr]
    refine ⟨[], hstore, trivial, fun e' he' => ?_⟩
    cases he'
    exact hcause c e (congrArg Prod.fst hr)
  · rw [bind_of_ok hr]
    exact hf a c' s hstore hs

/-- What a computation gives is known to what follows it. -/
theorem lift_bind {r : Except Error α} {f : α → Operation Client β}
    (h : ∀ e, r = .error e → E [] e) (hf : ∀ a, r = .ok a → Orderly P E (f a)) :
    Orderly P E (Operation.lift r >>= f) := by
  cases r with
  | error e => exact .fail (h e rfl)
  | ok a => exact hf a rfl

/-- A line in the log comes in no order. -/
theorem note_bind {level : Level} {message : String} {f : Unit → Operation Client β}
    (hf : ∀ a, Orderly P E (f a)) : Orderly P E (Client.note level message >>= f) :=
  .bind_of_leaves (fun _ => rfl) (fun _ _ h => nomatch h) hf

/-- What follows may neither fail nor touch the store. -/
theorem bind_of_total {op : Operation Client α} {f : α → Operation Client β} (h : Orderly P E op)
    (htotal : ∀ a, Total (f a)) (hf : ∀ a, Leaves Client.store (f a)) :
    Orderly P E (op >>= f) := by
  intro c s hc hs
  obtain ⟨calls, hstore, hproper, hcause⟩ := h c s hc hs
  rcases hr : op c with ⟨e | a, c'⟩ <;> rw [hr] at hstore hcause
  · rw [bind_of_error hr]
    refine ⟨calls, hstore, hproper, fun e' he' => ?_⟩
    cases he'
    exact hcause e rfl
  · rw [bind_of_ok hr]
    refine ⟨calls, (hf a c').trans hstore, hproper, fun e he => ?_⟩
    obtain ⟨b, c'', hb⟩ := htotal a c'
    rw [hb] at he
    cases he

/-- What is made of the result makes no calls. -/
theorem bind_pure {op : Operation Client α} (h : Orderly P E op) (f : α → β) :
    Orderly P E (op >>= fun a => Pure.pure (f a)) :=
  h.bind_of_total (fun _ => .pure _) fun _ => .pure _

/-- One call on the server. -/
theorem onStore {a : Operation Memory α} {b : Operation Server α} (call : Call)
    (hcall : ∀ s, P s → s.Proper call ∧ (b s).2 = s.receive call)
    (hcause : ∀ s e, P s → (b s).1 = .error e → E [call] e) :
    Orderly P E (Client.onStore (Store.onEither a b)) := by
  intro c s hc hs
  obtain ⟨hproper, hafter⟩ := hcall s hs
  have happly : Client.onStore (Store.onEither a b) c =
      ((b s).1, { c with store := .gateway (b s).2 }) := by
    simp only [Client.onStore, within, hc, Store.onEither]
  rw [happly, hafter]
  exact ⟨[call], rfl, ⟨hproper, trivial⟩, fun e => hcause s e hs⟩

end Orderly

/-- The server has the table. -/
def Holds (table : String) (s : Server) : Prop := s.tables.contains table = true

/-- A server that holds a table has it. -/
theorem exists_table_of_holds {s : Server} (h : Holds table s) :
    ∃ t, s.tables.get? table = some t := by
  have hsome : (s.tables.get? table).isSome = true := h
  exact Option.isSome_iff_exists.mp hsome

/-- Asking for a table is one call for the names of all tables. -/
theorem tableExists_of_gateway (table : String) {c : Client} {s : Server} (hc : c.store = .gateway s) :
    tableExists table c =
      (.ok (s.tables.contains table), { c with store := .gateway (s.record .tables) }) := by
  have hserver := Gateway.tableExists_apply table s
  simp only [tableExists, Store.tableExists, onStore, within, hc, Store.onEither, hserver]

/-- A table that is not there is reported, and the server has only been asked for its tables. -/
theorem requireTable_of_missing {c : Client} {s : Server} (hc : c.store = .gateway s)
    (h : s.tables.contains table = false) :
    requireTable table c =
      (.error (.noSuchTable table), { c with store := .gateway (s.record .tables) }) := by
  have hasked := tableExists_of_gateway table hc
  rw [h] at hasked
  unfold requireTable
  rw [bind_of_ok hasked]
  rfl

/-- Requiring a table that the server has is one call. -/
theorem requireTable_of_held {c : Client} {s : Server} (hc : c.store = .gateway s)
    (h : s.tables.contains table = true) :
    requireTable table c = (.ok (), { c with store := .gateway (s.record .tables) }) := by
  have hasked := tableExists_of_gateway table hc
  rw [h] at hasked
  unfold requireTable
  rw [bind_of_ok hasked]
  rfl

/-- What follows the check may rely on the table. -/
theorem orderly_requireTable_bind {f : Unit → Operation Client β} (hE : E' (.noSuchTable table))
    (hf : ∀ a, Orderly (Holds table) (fun _ => E') (f a)) :
    Orderly Anywhere (fun _ => E') (requireTable table >>= f) := by
  intro c s hc _
  have hasked : s.ProperFrom [.tables] := ⟨s.proper_tables, trivial⟩
  cases hheld : s.tables.contains table with
  | false =>
    rw [bind_of_error (requireTable_of_missing hc hheld)]
    refine ⟨[.tables], rfl, hasked, fun e he => ?_⟩
    cases he
    exact hE
  | true =>
    rw [bind_of_ok (requireTable_of_held hc hheld)]
    have hafter : Holds table (s.record .tables) := hheld
    obtain ⟨calls, hstore, hproper, hcause⟩ :=
      hf () { c with store := .gateway (s.record .tables) } _ rfl hafter
    exact ⟨.tables :: calls, hstore, ⟨s.proper_tables, hproper⟩, hcause⟩

/-- Families that pass the check are families of which a table can be made. -/
theorem families_of_checkedTable {name : Option String} {families : FamilyArgument} {table : String}
    {fs : NameSet} (h : checkedTable name families = .ok (table, fs)) :
    table ≠ "" ∧ Call.Families fs.names := by
  obtain ⟨l, -, -, hname, hsome, hblank, rfl⟩ := checkedTable_eq_ok h
  have hmem : ∀ f, f ∈ (NameSet.ofList l).names ↔ f ∈ l := fun f => NameSet.mem_ofList
  refine ⟨hname, ?_, (NameSet.ofList l).sorted, fun f hf => ?_⟩
  · obtain ⟨f, rest, rfl⟩ := List.exists_cons_of_ne_nil hsome
    exact List.ne_nil_of_mem ((hmem f).mpr (List.mem_cons_self ..))
  · have hnot := List.any_eq_false.mp hblank f ((hmem f).mp hf)
    exact Bool.eq_false_iff.mpr hnot

theorem orderly_tableExists (table : String) :
    Orderly Anywhere (fun _ => Error.Unforeseen) (tableExists table) := by
  refine .onStore .tables (fun s _ => ⟨s.proper_tables, ?_⟩) fun s e _ he => ?_
  · rw [Gateway.tableExists_apply]
    rfl
  · rw [Gateway.tableExists_apply] at he
    cases he

/-- All that can be wrong with a table to be made is found before the server is called. -/
theorem orderly_createTable (name : Option String) (families : FamilyArgument) :
    Orderly Anywhere Error.Timely (createTable name families) := by
  refine .lift_bind (fun _ => Error.timely_of_own (ownFailures_checkedTable _ _))
    fun ⟨table, fs⟩ hcheck => ?_
  obtain ⟨hname, hfamilies⟩ := families_of_checkedTable hcheck
  refine .note_bind fun _ => .bind_of_total (.onStore (.createTable table fs.names)
    (fun s _ => ⟨⟨rfl, ?_, nofun⟩, rfl⟩) fun _ _ _ h => nomatch h) (fun _ => .change _)
      fun _ _ => rfl
  intro table' families' hcall
  cases hcall
  exact ⟨hname, hfamilies⟩

theorem orderly_dropTable (table : String) :
    Orderly Anywhere (fun _ => Error.Unforeseen) (dropTable table) := by
  refine orderly_requireTable_bind (Error.unforeseen_noSuchTable table) fun _ => .bind (.onStore
    (.deleteTable table true) (fun s hs => ⟨s.proper_of_held rfl rfl hs, rfl⟩)
    fun s e hs he => ?_) fun _ => .note _ _
  obtain ⟨hmissing, -⟩ | ⟨-, hdropped⟩ := Gateway.deleteTable_cases table s
  · cases hmissing.symm.trans hs
  · rw [hdropped] at he
    cases he

theorem orderly_tableFamilies (table : String) :
    Orderly Anywhere (fun _ => Error.Unforeseen) (tableFamilies table) := by
  refine orderly_requireTable_bind (Error.unforeseen_noSuchTable table) fun _ => .onStore
    (.families table) (fun s hs => ⟨s.proper_of_held rfl rfl hs, ?_⟩) fun s e hs he => ?_
  · obtain ⟨t, ht⟩ := exists_table_of_holds hs
    rw [Gateway.tableFamilies_of_found ht]
    rfl
  · obtain ⟨t, ht⟩ := exists_table_of_holds hs
    rw [Gateway.tableFamilies_of_found ht] at he
    cases he

/-- Making a key does not touch the store. -/
theorem leaves_store_keyOfRow (r : Row) : Leaves Client.store (keyOfRow r) := by
  unfold keyOfRow
  split
  · exact fun _ => rfl
  · exact .lift _

/-- Making a key fails in reading the identifier only. -/
theorem ofReading_of_keyOfRow {r : Row} {c : Client} {e : Error}
    (h : (keyOfRow r c).1 = .error e) : e.ofReading = true := by
  by_cases hnull : r.idValue = .null
  · rw [keyOfRow_of_null hnull] at h
    cases h
  · rw [keyOfRow_of_identifier hnull] at h
    exact Value.ofReading_of_rowKey h

theorem orderly_deleteRow (table key : String) :
    Orderly Anywhere (fun _ => Error.Unforeseen) (deleteRow table key) := by
  refine orderly_requireTable_bind (Error.unforeseen_noSuchTable table) fun _ => .onStore
    (.delete table (.ofText key)) (fun s hs => ⟨s.proper_of_held rfl rfl hs, ?_⟩)
    fun s e hs he => ?_
  · obtain ⟨t, ht⟩ := exists_table_of_holds hs
    rw [Gateway.delete_of_found ht]
    simp only [Server.receive, ht]
    rfl
  · obtain ⟨t, ht⟩ := exists_table_of_holds hs
    rw [Gateway.delete_of_found ht] at he
    cases he

theorem orderly_getRow (table key : String) :
    Orderly Anywhere (fun _ => Error.Unforeseen) (getRow table key) := by
  refine orderly_requireTable_bind (Error.unforeseen_noSuchTable table) fun _ => .onStore
    (.row table (.ofText key)) (fun s hs => ⟨s.proper_of_held rfl rfl hs, ?_⟩)
    fun s e hs he => ?_
  · obtain ⟨t, ht⟩ := exists_table_of_holds hs
    rw [Gateway.get_of_found ht]
    rfl
  · obtain ⟨t, ht⟩ := exists_table_of_holds hs
    rw [Gateway.get_of_found ht] at he
    exact Error.unforeseen_of_ofReading (Gateway.ofReading_of_decodeRow he)

/-- The key and the cells of a row are settled between the check and the call. -/
theorem orderly_putRow (r : Row) :
    Orderly Anywhere (fun _ => Error.Unforeseen) (putRow r) := by
  refine orderly_requireTable_bind (Error.unforeseen_noSuchTable r.table.name) fun _ =>
    .bind_of_leaves (leaves_store_keyOfRow r)
      (fun _ _ h => Error.unforeseen_of_ofReading (ofReading_of_keyOfRow h)) fun key =>
        .note_bind fun _ => .lift_bind (fun e he =>
          Error.unforeseen_of_ofReading (Row.ofReading_of_cells he)) fun cells _ => ?_
  refine .bind (.onStore (.put r.table.name (.ofText key) (Gateway.encodeCells cells).entries)
    (fun s hs => ⟨s.proper_of_held rfl rfl hs, ?_⟩) fun s e hs he => ?_) fun _ => .pure _
  · obtain ⟨t, ht⟩ := exists_table_of_holds hs
    rw [Gateway.put_of_found ht]
    simp only [Server.receive, ht]
    rfl
  · obtain ⟨t, ht⟩ := exists_table_of_holds hs
    rw [Gateway.put_of_found ht] at he
    cases he

theorem orderly_insertRow (r : Row) :
    Orderly Anywhere (fun _ => Error.Unforeseen) (insertRow r) :=
  (orderly_putRow r).bind fun _ => .note_bind fun _ => .pure _

/-- A table without identifiers is refused before the server is called. -/
theorem orderly_deleteById (t : Table) (id : Value) :
    Orderly Anywhere Error.Timely (deleteById t id) := by
  have hrest : Orderly Anywhere (fun _ => Error.Unforeseen) (do
      let key ← Operation.lift id.rowKey
      deleteRow t.name key
      Client.note .debug ("Deleted row " ++ id.plainText ++ " from " ++ t.name ++ ".")) :=
    .lift_bind (fun e he => Error.unforeseen_of_ofReading (Value.ofReading_of_rowKey he))
      fun key _ => (orderly_deleteRow t.name key).bind fun _ => .note _ _
  exact .ite (.fail ⟨nofun, fun _ => rfl⟩) hrest.timely

theorem orderly_dropFrom (s : LiveSchema) (table : String) :
    Orderly Anywhere (fun _ => Error.Unforeseen) (dropFrom s table) :=
  (orderly_dropTable table).bind fun _ => .pure _

end Client

/-- A request is checked as a whole before the server is called. -/
theorem TableRequest.orderly_execute (r : TableRequest) (s : LiveSchema) :
    Client.Orderly Client.Anywhere Error.Timely (r.execute s) := by
  have hcreate : Client.Orderly Client.Anywhere Error.Timely (r.create s.name) :=
    .ite (.fail ⟨nofun, fun _ => rfl⟩) (.lift_bind
      (fun _ => Error.timely_of_own r.ownFailures_validFamilies) fun _ _ =>
        (Client.orderly_createTable _ _).bind_pure _)
  exact hcreate.bind_of_total (fun _ => (Client.total_note _ _).bind fun _ => .pure _)
    fun _ _ => rfl

end WideColumn
