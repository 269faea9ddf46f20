import WideColumn.Proofs.Store.Holdings

/-!
# What the use of a store cannot change

Some facts about a store survive whatever is done to it as long as certain
tables are neither made nor dropped: how it was set up, that its catalogues are
paired, and the families of a table that is left alone. They are collected
under one notion, so that a run of commands has to be followed only once.
-/

namespace WideColumn

open Operation OrderedMap

variable {α : Type}

namespace Server

/-- How a server was set up: its spelling of names, what follows a family, and whether it refuses
connections. -/
def setup (s : Server) : NameSpelling × String × Bool := (s.spelling, s.suffix, s.refuses)

@[simp] theorem setup_forgetCalls (s : Server) : s.forgetCalls.setup = s.setup := rfl

/-- Whatever leaves the contents of a server leaves its setup. -/
theorem leaves_setup {op : Operation Server α} (h : Leaves forgetCalls op) : Leaves setup op := by
  intro s
  rw [← setup_forgetCalls, h s, setup_forgetCalls]

/-- Bytes that are merged into a row change neither the setup nor the tables with their families. -/
theorem leaves_mergeRow (table : String) (row : Bytes) (cells : List (Bytes × Bytes)) :
    Leaves (fun s => (s.setup, s.holdings)) (mergeRow table row cells) := by
  intro s
  unfold mergeRow
  cases h : s.tables.get? table with
  | none => rw [bind_of_error (Gateway.findTable_of_none h)]
  | some t =>
    rw [bind_of_ok (Gateway.findTable_of_some h)]
    exact congrArg (Prod.mk s.setup) (holdings_insert_rows h _)

end Server

namespace Gateway

open Server

/-- Putting cells does not change how a server was set up. -/
theorem leaves_setup_put (table key : String) (cells : Cells) :
    Leaves setup (put table key cells) := by
  intro s
  cases h : s.tables.get? table with
  | none => rw [put_of_missing h]
  | some t => rw [put_of_found h]; rfl

theorem leaves_setup_delete (table key : String) : Leaves setup (delete table key) := by
  intro s
  cases h : s.tables.get? table with
  | none => rw [delete_of_missing h]
  | some t => rw [delete_of_found h]; rfl

theorem leaves_setup_deleteTable (table : String) : Leaves setup (deleteTable table) := by
  intro s
  rcases deleteTable_cases table s with ⟨-, h⟩ | ⟨-, h⟩ <;> rw [h] <;> rfl

end Gateway

namespace Store

variable {names : String → Prop} {Q Q' : Store → Prop}

/-- The predicate survives whatever is done to a store in which only the tables at issue are made
and dropped. -/
structure Stable (names : String → Prop) (Q : Store → Prop) : Prop extends RowStable Q where
  /-- Making a table. -/
  createTable : ∀ table fs, names table → Keeps Q (createTable table fs)
  /-- Dropping a table. -/
  deleteTable : ∀ table, names table → Keeps Q (deleteTable table)
  /-- Closing the store. -/
  close : Keeps Q close
  /-- The calls on record do not matter. -/
  sameContents : ∀ st st', st.forgetCalls = st'.forgetCalls → Q st → Q st'

/-- Two predicates that survive apart survive together. -/
theorem Stable.and (h : Stable names Q) (h' : Stable names Q') :
    Stable names fun st => Q st ∧ Q' st where
  toRowStable := h.toRowStable.and h'.toRowStable
  createTable t fs ht st hst := ⟨h.createTable t fs ht st hst.1, h'.createTable t fs ht st hst.2⟩
  deleteTable t ht st hst := ⟨h.deleteTable t ht st hst.1, h'.deleteTable t ht st hst.2⟩
  close st hst := ⟨h.close st hst.1, h'.close st hst.2⟩
  sameContents st st' heq hst :=
    ⟨h.sameContents st st' heq hst.1, h'.sameContents st st' heq hst.2⟩

/-- How the server behind a store was set up; a memory store has none. -/
def setup : Store → Option (NameSpelling × String × Bool)
  | memory _ => none
  | gateway s => some s.setup

@[simp] theorem setup_forgetCalls (st : Store) : st.forgetCalls.setup = st.setup := by
  cases st <;> rfl

/-- Only a memory store has no setup. -/
theorem exists_memory_of_setup {st : Store} (h : st.setup = none) : ∃ m, st = .memory m := by
  cases st with
  | memory m => exact ⟨m, rfl⟩
  | gateway s => cases h

/-- A setup is that of the server behind a store. -/
theorem exists_gateway_of_setup {st : Store} {x : NameSpelling × String × Bool}
    (h : st.setup = some x) : ∃ s, st = .gateway s ∧ s.setup = x := by
  cases st with
  | memory m => cases h
  | gateway s => exact ⟨s, rfl, Option.some.inj h⟩

theorem leaves_setup_onEither (a : Operation Memory α) {b : Operation Server α}
    (hb : Leaves Server.setup b) : Leaves setup (onEither a b) := by
  intro st
  cases st with
  | memory m => rfl
  | gateway s => exact congrArg some (hb s)

/-- Nothing that is done to a store changes how it was set up. -/
theorem stable_setup (names : String → Prop) (x : Option (NameSpelling × String × Bool)) :
    Stable names fun st => st.setup = x where
  tableExists table := .of_leaves (leaves_setup_onEither _
    (Server.leaves_setup (Gateway.leaves_tableExists table))) (· = x)
  tableFamilies table := .of_leaves (leaves_setup_onEither _
    (Server.leaves_setup (Gateway.leaves_tableFamilies table))) (· = x)
  put table key cells := .of_leaves (leaves_setup_onEither _
    (Gateway.leaves_setup_put table key cells)) (· = x)
  get table key := .of_leaves (leaves_setup_onEither _
    (Server.leaves_setup (Gateway.leaves_get table key))) (· = x)
  delete table key := .of_leaves (leaves_setup_onEither _
    (Gateway.leaves_setup_delete table key)) (· = x)
  forgetCalls st hst := (setup_forgetCalls st).trans hst
  createTable table fs _ := .of_leaves (leaves_setup_onEither _ fun _ => rfl) (· = x)
  deleteTable table _ := .of_leaves (leaves_setup_onEither _
    (Gateway.leaves_setup_deleteTable table)) (· = x)
  close := .of_leaves (leaves_setup_onEither _ fun _ => rfl) (· = x)
  sameContents st st' heq hst := by
    rw [← setup_forgetCalls, ← heq, setup_forgetCalls]
    exact hst

/-- Bytes that come past the gateway do not change how a server was set up. -/
theorem keeps_setup_mergeRow (x : Option (NameSpelling × String × Bool)) (table : String)
    (row : Bytes) (cells : List (Bytes × Bytes)) :
    Keeps (fun st => st.setup = x) (mergeRow table row cells) :=
  .of_leaves (leaves_setup_onEither _ fun s =>
    congrArg Prod.fst (Server.leaves_mergeRow table row cells s)) (· = x)

@[simp] theorem paired_forgetCalls (st : Store) : st.forgetCalls.Paired ↔ st.Paired := by
  cases st <;> rfl

/-- Nothing that is done to a memory store takes its catalogues apart. -/
theorem stable_paired (names : String → Prop) : Stable names Paired where
  toRowStable := rowStable_paired
  createTable table fs _ := keeps_paired_createTable table fs
  deleteTable table _ := keeps_paired_deleteTable table
  close := keeps_onEither (fun _ h => h) fun _ h => h
  sameContents st st' heq hst := by
    rw [← paired_forgetCalls, ← heq, paired_forgetCalls]
    exact hst

/-- Bytes that come past the gateway do not reach a memory store. -/
theorem keeps_paired_mergeRow (table : String) (row : Bytes) (cells : List (Bytes × Bytes)) :
    Keeps Paired (mergeRow table row cells) :=
  keeps_onEither (fun _ h => h) fun _ h => h

/-- A failure of an operation that fails without a trace leaves the tables of a store. -/
theorem holdings_of_error {op : Operation Store α} (hop : Atomic forgetCalls op) {st st' : Store}
    {e : Error} (h : op st = (.error e, st')) : st'.holdings = st.holdings := by
  rw [← holdings_forgetCalls, hop st e st' h, holdings_forgetCalls]

/-- Making a table leaves the families of another. -/
theorem keeps_families_createTable {name table : String} (hne : table ≠ name) (fs gs : NameSet) :
    Keeps (fun st => st.holdings.get? name = some gs) (createTable table fs) := by
  intro st hst
  rcases hr : createTable table fs st with ⟨e | ⟨⟩, st'⟩
  · exact (congrArg (get? · name) (holdings_of_error (atomic_createTable table fs) hr)).trans hst
  · have hmade := holdings_createTable hr
    simp only [hmade, get?_insert, hne, if_false]
    exact hst

/-- Dropping a table leaves the families of another. -/
theorem keeps_families_deleteTable {name table : String} (hne : table ≠ name) (gs : NameSet) :
    Keeps (fun st => st.holdings.get? name = some gs) (deleteTable table) := by
  intro st hst
  rcases hr : deleteTable table st with ⟨e | ⟨⟩, st'⟩
  · exact (congrArg (get? · name) (holdings_of_error (atomic_deleteTable table) hr)).trans hst
  · have hdropped := holdings_deleteTable hr
    simp only [hdropped, get?_erase, hne, if_false]
    exact hst

/-- A table keeps its families as long as it is itself neither made again nor dropped. -/
theorem stable_families (name : String) (fs : NameSet) :
    Stable (· ≠ name) fun st => st.holdings.get? name = some fs where
  toRowStable := rowStable_holdings fun h => h.get? name = some fs
  createTable table gs hne := keeps_families_createTable hne gs fs
  deleteTable table hne := keeps_families_deleteTable hne fs
  close := .of_leaves (leaves_holdings_onEither (fun _ => rfl) fun _ => rfl) fun h =>
    h.get? name = some fs
  sameContents st st' heq hst := by
    rw [← holdings_forgetCalls, ← heq, holdings_forgetCalls]
    exact hst

/-- Bytes that come past the gateway leave the families of every table. -/
theorem keeps_families_mergeRow (name : String) (fs : NameSet) (table : String) (row : Bytes)
    (cells : List (Bytes × Bytes)) :
    Keeps (fun st => st.holdings.get? name = some fs) (mergeRow table row cells) :=
  .of_leaves (leaves_holdings_onEither (fun _ => rfl) fun s =>
    congrArg Prod.snd (Server.leaves_mergeRow table row cells s)) fun h => h.get? name = some fs

end Store

end WideColumn
