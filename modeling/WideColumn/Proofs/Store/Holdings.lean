import WideColumn.Proofs.Store.Atomicity
import WideColumn.Proofs.Store.Gateway
import WideColumn.Proofs.TableRequest

/-!
# The tables that a store holds

The holdings of a store are its tables in the order in which they were made,
each with its families. Work on rows leaves them alone, a table that is made is
bound among them, and a table that is dropped is erased, on both kinds of store.
-/

namespace WideColumn

open Operation OrderedMap

namespace Server

variable {α : Type}

/-- The tables of a server with their families. -/
def holdings (s : Server) : OrderedMap String NameSet :=
  s.tables.mapValues fun t => NameSet.ofList t.families

@[simp] theorem holdings_forgetCalls (s : Server) : s.forgetCalls.holdings = s.holdings := rfl

/-- Whatever leaves the contents of a server leaves its tables. -/
theorem leaves_holdings {op : Operation Server α} (h : Leaves forgetCalls op) :
    Leaves holdings op := by
  intro s
  rw [← holdings_forgetCalls, h s, holdings_forgetCalls]

/-- A table that is held is a table of the server, made of its families. -/
theorem exists_table_of_held {s : Server} {name : String} {fs : NameSet}
    (h : s.holdings.get? name = some fs) :
    ∃ t, s.tables.get? name = some t ∧ NameSet.ofList t.families = fs := by
  rw [holdings, get?_mapValues] at h
  exact Option.map_eq_some_iff.mp h

/-- New rows for a table do not change the tables and families of a server. -/
theorem holdings_insert_rows {s : Server} {table : String} {t : ServerTable}
    (h : s.tables.get? table = some t) (rows : OrderedMap Bytes ServerRow) :
    holdings { s with tables := s.tables.insert table { t with rows := rows } } = s.holdings := by
  have hfam : s.holdings.get? table = some (NameSet.ofList t.families) := by
    rw [holdings, get?_mapValues, h]
    rfl
  simp only [holdings, mapValues_insert]
  exact insert_of_get? hfam

end Server

namespace Gateway

/-- Putting cells does not touch the tables that a server holds. -/
theorem leaves_holdings_put (table key : String) (cells : Cells) :
    Leaves Server.holdings (put table key cells) := by
  intro s
  cases h : s.tables.get? table with
  | none => rw [put_of_missing h]
  | some t =>
    rw [put_of_found h]
    exact Server.holdings_insert_rows h _

/-- Deleting a row does not touch the tables that a server holds. -/
theorem leaves_holdings_delete (table key : String) :
    Leaves Server.holdings (delete table key) := by
  intro s
  cases h : s.tables.get? table with
  | none => rw [delete_of_missing h]
  | some t =>
    rw [delete_of_found h]
    exact Server.holdings_insert_rows h _

end Gateway

namespace Memory

/-- Putting cells does not touch the families of a memory store. -/
theorem leaves_families_put (table key : String) (cells : Cells) :
    Leaves families (put table key cells) := by
  intro m
  rcases put_cases m table key cells with ⟨e, h, -⟩ | ⟨rows, fs, -, -, -, h⟩ <;> rw [h]

/-- Deleting a row does not touch the families of a memory store. -/
theorem leaves_families_delete (table key : String) : Leaves families (delete table key) := by
  intro m
  rcases delete_cases m table key with ⟨e, h⟩ | ⟨rows, -, h⟩ <;> rw [h]

end Memory

namespace Store

variable {α : Type}

/-- The tables of a store with their families, in the order in which they were made. -/
def holdings : Store → OrderedMap String NameSet
  | memory m => m.families
  | gateway s => s.holdings

/-- The store is a memory store. -/
def isMemory : Store → Bool
  | memory _ => true
  | gateway _ => false

/-- The catalogues of a memory store know the same tables. -/
def Paired : Store → Prop
  | memory m => m.Paired
  | gateway _ => True

@[simp] theorem holdings_forgetCalls (st : Store) : st.forgetCalls.holdings = st.holdings := by
  cases st <;> rfl

/-- A store on which nothing has been done: a memory store as it starts, or a server of any habits
without tables. -/
inductive Fresh : Store → Prop where
  /-- A memory store as it starts. -/
  | memory : Fresh (memory .empty)
  /-- A server without tables. -/
  | gateway (spelling : NameSpelling) (suffix : String) (refuses : Bool) :
      Fresh (gateway (.withTables spelling suffix refuses []))

namespace Fresh

variable {st : Store}

/-- A fresh store holds no tables. -/
theorem holdings (h : st.Fresh) : st.holdings = ∅ := by
  cases h <;> rfl

/-- The catalogues of a fresh store know the same tables, none. -/
theorem paired (h : st.Fresh) : st.Paired := by
  cases h with
  | memory => exact Memory.paired_empty
  | gateway => trivial

end Fresh

/-- What both kinds keep, a store keeps. -/
theorem keeps_onEither {Q : Store → Prop} {a : Operation Memory α} {b : Operation Server α}
    (ha : Keeps (fun m => Q (memory m)) a) (hb : Keeps (fun s => Q (gateway s)) b) :
    Keeps Q (onEither a b) := by
  intro st hst
  cases st with
  | memory m => exact ha m hst
  | gateway s => exact hb s hst

theorem leaves_holdings_onEither {a : Operation Memory α} {b : Operation Server α}
    (ha : Leaves Memory.families a) (hb : Leaves Server.holdings b) :
    Leaves holdings (onEither a b) := by
  intro st
  cases st with
  | memory m => exact ha m
  | gateway s => exact hb s

/-- No operation turns one kind of store into the other. -/
theorem leaves_isMemory_onEither (a : Operation Memory α) (b : Operation Server α) :
    Leaves isMemory (onEither a b) := by
  intro st
  cases st <;> rfl

/-- The predicate survives every operation that leaves the tables themselves alone. -/
structure RowStable (Q : Store → Prop) : Prop where
  /-- Asking for a table. -/
  tableExists : ∀ table, Keeps Q (tableExists table)
  /-- Asking for the families of a table. -/
  tableFamilies : ∀ table, Keeps Q (tableFamilies table)
  /-- Laying cells on top of a row. -/
  put : ∀ table key cells, Keeps Q (put table key cells)
  /-- Asking for a row. -/
  get : ∀ table key, Keeps Q (get table key)
  /-- Dropping a row. -/
  delete : ∀ table key, Keeps Q (delete table key)
  /-- Forgetting the calls received so far. -/
  forgetCalls : ∀ st, Q st → Q st.forgetCalls

/-- Two predicates that survive work on rows survive it together. -/
theorem RowStable.and {Q Q' : Store → Prop} (h : RowStable Q) (h' : RowStable Q') :
    RowStable fun st => Q st ∧ Q' st where
  tableExists t st hst := ⟨h.tableExists t st hst.1, h'.tableExists t st hst.2⟩
  tableFamilies t st hst := ⟨h.tableFamilies t st hst.1, h'.tableFamilies t st hst.2⟩
  put t k cells st hst := ⟨h.put t k cells st hst.1, h'.put t k cells st hst.2⟩
  get t k st hst := ⟨h.get t k st hst.1, h'.get t k st hst.2⟩
  delete t k st hst := ⟨h.delete t k st hst.1, h'.delete t k st hst.2⟩
  forgetCalls st hst := ⟨h.forgetCalls st hst.1, h'.forgetCalls st hst.2⟩

/-- Work on rows leaves the tables and their families. -/
theorem rowStable_holdings (P : OrderedMap String NameSet → Prop) :
    RowStable fun st => P st.holdings where
  tableExists table := .of_leaves (leaves_holdings_onEither
    (Memory.leaves_tableExists table).every
    (Server.leaves_holdings (Gateway.leaves_tableExists table))) P
  tableFamilies table := .of_leaves (leaves_holdings_onEither
    (Memory.leaves_tableFamilies table).every
    (Server.leaves_holdings (Gateway.leaves_tableFamilies table))) P
  put table key cells := .of_leaves (leaves_holdings_onEither
    (Memory.leaves_families_put table key cells)
    (Gateway.leaves_holdings_put table key cells)) P
  get table key := .of_leaves (leaves_holdings_onEither (Memory.leaves_get table key).every
    (Server.leaves_holdings (Gateway.leaves_get table key))) P
  delete table key := .of_leaves (leaves_holdings_onEither
    (Memory.leaves_families_delete table key) (Gateway.leaves_holdings_delete table key)) P
  forgetCalls st hst := by
    cases st <;> exact hst

/-- Work on rows does not turn one kind of store into the other. -/
theorem rowStable_isMemory (b : Bool) : RowStable fun st => st.isMemory = b where
  tableExists _ := .of_leaves (leaves_isMemory_onEither _ _) (· = b)
  tableFamilies _ := .of_leaves (leaves_isMemory_onEither _ _) (· = b)
  put _ _ _ := .of_leaves (leaves_isMemory_onEither _ _) (· = b)
  get _ _ := .of_leaves (leaves_isMemory_onEither _ _) (· = b)
  delete _ _ := .of_leaves (leaves_isMemory_onEither _ _) (· = b)
  forgetCalls st hst := by
    cases st <;> exact hst

/-- Work on rows keeps the catalogues of a memory store paired. -/
theorem rowStable_paired : RowStable Paired where
  tableExists table := keeps_onEither
    (.of_leaves (Memory.leaves_tableExists table) Memory.Paired) fun _ h => h
  tableFamilies table := keeps_onEither
    (.of_leaves (Memory.leaves_tableFamilies table) Memory.Paired) fun _ h => h
  put table key cells := keeps_onEither (Memory.keeps_paired_put table key cells) fun _ h => h
  get table key := keeps_onEither
    (.of_leaves (Memory.leaves_get table key) Memory.Paired) fun _ h => h
  delete table key := keeps_onEither (Memory.keeps_paired_delete table key) fun _ h => h
  forgetCalls st hst := by
    cases st <;> exact hst

theorem keeps_paired_createTable (table : String) (fs : NameSet) :
    Keeps Paired (createTable table fs) :=
  keeps_onEither (Memory.keeps_paired_createTable table fs) fun _ h => h

theorem keeps_paired_deleteTable (table : String) : Keeps Paired (deleteTable table) :=
  keeps_onEither (Memory.keeps_paired_deleteTable table) fun _ h => h

/-- A table that is made is bound among the tables of the store, with its families. -/
theorem holdings_createTable {st st' : Store} {table : String} {fs : NameSet}
    (h : createTable table fs st = (.ok (), st')) : st'.holdings = st.holdings.insert table fs := by
  cases st with
  | memory m =>
    simp only [createTable, onEither] at h
    rcases Memory.createTable_cases m table fs with ⟨-, hr⟩ | ⟨-, hr⟩ <;> rw [hr] at h <;> cases h
    rfl
  | gateway s =>
    cases h
    simp only [holdings, Server.holdings, mapValues_insert, NameSet.ofList_names]

/-- A table that is dropped is erased from the tables of the store. -/
theorem holdings_deleteTable {st st' : Store} {table : String}
    (h : deleteTable table st = (.ok (), st')) : st'.holdings = st.holdings.erase table := by
  cases st with
  | memory m =>
    simp only [deleteTable, onEither] at h
    rcases Memory.deleteTable_cases m table with ⟨e, hr⟩ | ⟨rows, fs, -, -, hr⟩ <;>
      rw [hr] at h <;> cases h
    rfl
  | gateway s =>
    simp only [deleteTable, onEither] at h
    rcases Gateway.deleteTable_cases table s with ⟨-, hr⟩ | ⟨-, hr⟩ <;> rw [hr] at h <;> cases h
    exact mapValues_erase (fun t => NameSet.ofList t.families) s.tables table

end Store

end WideColumn
