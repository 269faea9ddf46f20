import WideColumn.Proofs.Operation.Frame
import WideColumn.Proofs.Store.Memory
import WideColumn.Store.Update
import WideColumn.TableRequest

/-!
# Failures leave the store as it was

Every operation of a store either looks and refuses before it changes anything,
or has nothing left that could refuse. The contents of a store are all of it but
the record of the calls that a server received, which a refused operation may
have made longer. The operations of a client inherit this from the store. A put
into memory is not among them.
-/

namespace WideColumn

open Operation

namespace Memory

theorem leaves_tableExists (table : String) : Leaves id (tableExists table) := fun _ => rfl

theorem leaves_tableRows (table : String) : Leaves id (tableRows table) := by
  intro m
  unfold tableRows
  split <;> rfl

theorem leaves_declaredFamilies (table : String) : Leaves id (declaredFamilies table) := by
  intro m
  unfold declaredFamilies
  split <;> rfl

theorem leaves_tableFamilies (table : String) : Leaves id (tableFamilies table) :=
  (leaves_tableRows table).bind fun _ => leaves_declaredFamilies table

theorem leaves_get (table key : String) : Leaves id (get table key) :=
  (leaves_tableRows table).bind fun _ => .pure _

/-- Making a table in memory changes all or nothing. -/
theorem atomic_createTable (table : String) (fs : NameSet) : Atomic id (createTable table fs) :=
  (leaves_tableExists table).bind_atomic fun _ =>
    .ite (Leaves.fail _).atomic (Total.change _).atomic

/-- Dropping a table in memory changes all or nothing. -/
theorem atomic_deleteTable (table : String) : Atomic id (deleteTable table) := by
  intro m e m' h
  rcases deleteTable_cases m table with ⟨e', hr⟩ | ⟨rows, fs, -, -, hr⟩ <;> rw [hr] at h <;> cases h
  rfl

theorem atomic_delete (table key : String) : Atomic id (delete table key) :=
  (leaves_tableRows table).bind_atomic fun _ => (Total.change _).atomic

end Memory

namespace Server

/-- Looking up a table of a server changes nothing. -/
theorem leaves_findTable (table : String) : Leaves id (findTable table) := by
  intro s
  unfold findTable
  split <;> rfl

theorem leaves_tableNames : Leaves forgetCalls tableNames := fun _ => rfl

/-- Asking a server for families only leaves a record of the call. -/
theorem leaves_familyNames (table : String) (t : ServerTable) :
    Leaves forgetCalls (familyNames table t) := fun _ => rfl

/-- Asking a server for a row only leaves a record of the call. -/
theorem leaves_row (table : String) (t : ServerTable) (key : Bytes) :
    Leaves forgetCalls (row table t key) := fun _ => rfl

/-- Dropping a table of a server changes all or nothing but the record. -/
theorem atomic_deleteTable (table : String) (disable : Bool) :
    Atomic forgetCalls (deleteTable table disable) := by
  intro s e s' h
  unfold deleteTable at h
  split at h
  · cases h
  · cases h
    rfl

/-- Writing into a row of a server changes all or nothing but the record. -/
theorem atomic_mergeRow (table : String) (row : Bytes) (cells : List (Bytes × Bytes)) :
    Atomic forgetCalls (mergeRow table row cells) :=
  (leaves_findTable table).every.bind_atomic fun _ => (Total.change _).atomic

end Server

namespace Gateway

open Server

theorem leaves_tableExists (table : String) : Leaves forgetCalls (tableExists table) :=
  leaves_tableNames.bind fun _ => (Leaves.lift _).bind fun _ => .pure _

theorem leaves_tableFamilies (table : String) : Leaves forgetCalls (tableFamilies table) :=
  (leaves_findTable table).every.bind fun _ =>
    (leaves_familyNames table _).bind fun _ => (Leaves.lift _).bind fun _ => .pure _

theorem leaves_get (table key : String) : Leaves forgetCalls (get table key) :=
  (leaves_findTable table).every.bind fun _ => (leaves_row table _ _).bind fun _ => .lift _

/-- Putting cells through the gateway changes all or nothing but the record. -/
theorem atomic_put (table key : String) (cells : Cells) :
    Atomic forgetCalls (put table key cells) :=
  (leaves_findTable table).every.bind_atomic fun _ => (Total.change _).atomic

theorem atomic_delete (table key : String) : Atomic forgetCalls (delete table key) :=
  (leaves_findTable table).every.bind_atomic fun _ => (Total.change _).atomic

end Gateway

namespace Store

variable {α : Type}

@[simp] theorem forgetCalls_forgetCalls (st : Store) :
    st.forgetCalls.forgetCalls = st.forgetCalls := by
  cases st <;> rfl

@[simp] theorem calls_forgetCalls (st : Store) : st.forgetCalls.calls = [] := by
  cases st <;> rfl

/-- What both kinds leave of their contents, a store leaves of its contents. -/
theorem leaves_onEither {a : Operation Memory α} {b : Operation Server α} (ha : Leaves id a)
    (hb : Leaves Server.forgetCalls b) : Leaves forgetCalls (onEither a b) := by
  intro st
  cases st with
  | memory m => exact congrArg memory (ha m)
  | gateway s => exact congrArg gateway (hb s)

/-- What fails without a trace on both kinds does so on a store. -/
theorem atomic_onEither {a : Operation Memory α} {b : Operation Server α} (ha : Atomic id a)
    (hb : Atomic Server.forgetCalls b) : Atomic forgetCalls (onEither a b) := by
  intro st e st' h
  cases st with
  | memory m =>
    cases hr : a m with
    | mk r m' =>
      simp only [onEither, hr] at h
      cases h
      exact congrArg memory (ha m e m' hr)
  | gateway s =>
    cases hr : b s with
    | mk r s' =>
      simp only [onEither, hr] at h
      cases h
      exact congrArg gateway (hb s e s' hr)

theorem leaves_tableExists (table : String) : Leaves forgetCalls (tableExists table) :=
  leaves_onEither (Memory.leaves_tableExists table) (Gateway.leaves_tableExists table)

theorem leaves_tableFamilies (table : String) : Leaves forgetCalls (tableFamilies table) :=
  leaves_onEither (Memory.leaves_tableFamilies table) (Gateway.leaves_tableFamilies table)

theorem leaves_get (table key : String) : Leaves forgetCalls (get table key) :=
  leaves_onEither (Memory.leaves_get table key) (Gateway.leaves_get table key)

theorem atomic_createTable (table : String) (families : NameSet) :
    Atomic forgetCalls (createTable table families) :=
  atomic_onEither (Memory.atomic_createTable table families) (Total.change _).atomic

theorem atomic_deleteTable (table : String) : Atomic forgetCalls (deleteTable table) :=
  atomic_onEither (Memory.atomic_deleteTable table) (Server.atomic_deleteTable table true)

theorem atomic_delete (table key : String) : Atomic forgetCalls (delete table key) :=
  atomic_onEither (Memory.atomic_delete table key) (Gateway.atomic_delete table key)

theorem atomic_mergeRow (table : String) (row : Bytes) (cells : List (Bytes × Bytes)) :
    Atomic forgetCalls (mergeRow table row cells) :=
  atomic_onEither (Leaves.fail _).atomic (Server.atomic_mergeRow table row cells)

/-- Closing a store does not fail. -/
theorem total_close : Total close := by
  intro st
  cases st with
  | memory m => exact ⟨(), _, rfl⟩
  | gateway s => exact ⟨(), _, rfl⟩

end Store

namespace Client

variable {α : Type}

/-- What the store of a client holds; the calls that a server received are no part of it. -/
def contents (c : Client) : Store := c.store.forgetCalls

/-- What leaves the contents of the store leaves those of the client. -/
theorem leaves_onStore {op : Operation Store α} (h : Leaves Store.forgetCalls op) :
    Leaves contents (onStore op) :=
  h.within fun _ _ ht => ht

/-- What is atomic for the store is atomic for the client. -/
theorem atomic_onStore {op : Operation Store α} (h : Atomic Store.forgetCalls op) :
    Atomic contents (onStore op) :=
  h.within fun _ _ ht => ht

theorem leaves_note (level : Level) (message : String) : Leaves contents (note level message) :=
  fun _ => rfl

theorem total_note (level : Level) (message : String) : Total (note level message) :=
  Total.change _

theorem leaves_tableExists (table : String) : Leaves contents (tableExists table) :=
  leaves_onStore (Store.leaves_tableExists table)

/-- Requiring a table changes nothing but the record. -/
theorem leaves_requireTable (table : String) : Leaves contents (requireTable table) :=
  (leaves_tableExists table).bind fun _ => .ite (.pure _) (.fail _)

theorem leaves_keyOfRow (r : Row) : Leaves contents (keyOfRow r) := by
  unfold keyOfRow
  split
  · exact fun _ => rfl
  · exact Leaves.lift _

theorem leaves_tableFamilies (table : String) : Leaves contents (tableFamilies table) :=
  (leaves_requireTable table).bind fun _ => leaves_onStore (Store.leaves_tableFamilies table)

theorem leaves_getRow (table key : String) : Leaves contents (getRow table key) :=
  (leaves_requireTable table).bind fun _ => leaves_onStore (Store.leaves_get table key)

/-- Making a table through the client changes all or nothing. -/
theorem atomic_createTable (table : Option String) (families : FamilyArgument) :
    Atomic contents (createTable table families) :=
  (Leaves.lift _).bind_atomic fun _ => (leaves_note _ _).bind_atomic fun _ =>
    (atomic_onStore (Store.atomic_createTable _ _)).bind_total fun _ => total_note _ _

/-- Dropping a table through the client changes all or nothing. -/
theorem atomic_dropTable (table : String) : Atomic contents (dropTable table) :=
  (leaves_requireTable table).bind_atomic fun _ =>
    (atomic_onStore (Store.atomic_deleteTable table)).bind_total fun _ => total_note _ _

/-- Deleting a row through the client changes all or nothing. -/
theorem atomic_deleteRow (table key : String) : Atomic contents (deleteRow table key) :=
  (leaves_requireTable table).bind_atomic fun _ => atomic_onStore (Store.atomic_delete table key)

/-- Deleting by identifier changes all or nothing. -/
theorem atomic_deleteById (t : Table) (id : Value) : Atomic contents (deleteById t id) := by
  unfold deleteById
  apply Atomic.refuse_first
  exact (Leaves.lift _).bind_atomic fun _ =>
    (atomic_deleteRow _ _).bind_total fun _ => total_note _ _

theorem atomic_dropFrom (s : LiveSchema) (table : String) : Atomic contents (dropFrom s table) :=
  (atomic_dropTable table).bind_total fun _ => .pure _

end Client

namespace TableRequest

/-- Making the table of a request changes all or nothing. -/
theorem atomic_create (r : TableRequest) (schemaName : String) :
    Atomic Client.contents (r.create schemaName) := by
  unfold create
  apply Atomic.refuse_first
  exact (Leaves.lift _).bind_atomic fun _ =>
    (Client.atomic_createTable _ _).bind_total fun _ => .pure _

/-- Nothing can refuse once the store has made the table of a request. -/
theorem atomic_execute (r : TableRequest) (s : LiveSchema) :
    Atomic Client.contents (r.execute s) :=
  (atomic_create r s.name).bind_total fun _ => (Client.total_note _ _).bind fun _ => .pure _

end TableRequest

end WideColumn
