import WideColumn.Proofs.Store.Stability
import WideColumn.Proofs.Store.Wire

/-!
# Rows of joined names

Every name that is sent for a cell is joined of two parts, and can be cut into a
part without a colon and the rest, though not always the parts that it was
joined of. So a row that was only written through a gateway can always be read,
and what is read is known from the names in it.
-/

namespace WideColumn

open Operation OrderedMap

/-- The name is joined of a family without a colon and a qualifier. -/
def JoinedName (b : Bytes) : Prop := ∃ f q, ColonFree f ∧ b = Gateway.cellKey f q

/-- Every name of the row is joined. -/
def ServerRow.Joined (row : ServerRow) : Prop := ∀ b ∈ OrderedMap.keys row, JoinedName b

/-- Every name of every row of the table is joined. -/
def ServerTable.Joined (t : ServerTable) : Prop :=
  ∀ key row, t.rows.get? key = some row → row.Joined

/-- Every name of every row of the server is joined. -/
def Server.Joined (s : Server) : Prop := ∀ name t, s.tables.get? name = some t → t.Joined

/-- Any two parts make a joined name, though perhaps not of these parts. -/
theorem joinedName_cellKey (f q : String) : JoinedName (Gateway.cellKey f q) := by
  obtain ⟨g, p, -, hname, hfree⟩ := Column.exists_ofJoined f q
  exact ⟨g, p, hfree, congrArg Bytes.ofText hname.symm⟩

namespace ServerRow

theorem joined_empty : Joined ∅ := fun _ h => nomatch h

/-- Bytes merged under joined names leave a joined row. -/
theorem Joined.insertAll {row : ServerRow} (h : row.Joined) {l : List (Bytes × Bytes)}
    (hl : ∀ e ∈ l, JoinedName e.1) : Joined (OrderedMap.insertAll row l) := by
  intro b hb
  rcases mem_keys_insertAll.mp hb with hb | hb
  · exact h b hb
  · obtain ⟨e, he, rfl⟩ := List.mem_map.mp hb
    exact hl e he

end ServerRow

namespace ServerTable

variable {t : ServerTable}

theorem joined_new (families : List String) : Joined ⟨families, ∅⟩ := fun _ _ h => nomatch h

/-- The row under a key is joined, whether it is there or not. -/
theorem Joined.row (h : t.Joined) (key : Bytes) : ((t.rows.get? key).getD ∅).Joined := by
  cases hrow : t.rows.get? key with
  | none => exact ServerRow.joined_empty
  | some row => exact h key row hrow

/-- Joined names that are merged into a row leave the names of the table joined. -/
theorem Joined.mergeInto (h : t.Joined) (key : Bytes) {l : List (Bytes × Bytes)}
    (hl : ∀ e ∈ l, JoinedName e.1) : (Server.mergeInto t key l).Joined := by
  intro k row hrow
  simp only [Server.mergeInto, get?_insert] at hrow
  split at hrow
  · cases hrow
    exact (h.row key).insertAll hl
  · exact h k row hrow

/-- Dropping a row leaves the names of the table joined. -/
theorem Joined.erase (h : t.Joined) (key : Bytes) :
    Joined { t with rows := t.rows.erase key } := by
  intro k row hrow
  simp only [get?_erase] at hrow
  split at hrow
  · cases hrow
  · exact h k row hrow

end ServerTable

namespace Server.Joined

variable {s s' : Server}

/-- Only the tables of a server matter to its names. -/
theorem of_tables (h : s.Joined) (heq : s'.tables = s.tables) : s'.Joined := by
  intro name t ht
  rw [heq] at ht
  exact h name t ht

/-- A table with joined names leaves the names of the server joined. -/
theorem insert_table (h : s.Joined) {table : String} {t : ServerTable} (ht : t.Joined)
    (heq : s'.tables = s.tables.insert table t) : s'.Joined := by
  intro name u hu
  rw [heq, get?_insert] at hu
  split at hu
  · cases hu
    exact ht
  · exact h name u hu

/-- Dropping a table leaves the names of the server joined. -/
theorem erase_table (h : s.Joined) {table : String} (heq : s'.tables = s.tables.erase table) :
    s'.Joined := by
  intro name u hu
  rw [heq, get?_erase] at hu
  split at hu
  · cases hu
  · exact h name u hu

end Server.Joined

namespace Gateway

/-- Whatever leaves the contents of a server leaves its rows joined. -/
theorem keeps_joined {α : Type} {op : Operation Server α} (h : Leaves Server.forgetCalls op) :
    Keeps Server.Joined op :=
  fun s hs => hs.of_tables (congrArg Server.tables (h s) :)

/-- What is sent for cells has joined names only. -/
theorem joinedName_encodeCells (cells : Cells) :
    ∀ e ∈ (encodeCells cells).entries, JoinedName e.1 := by
  intro e he
  obtain ⟨f, q, v, -, hkey⟩ := mem_keys_encodeCells.mp (List.mem_map_of_mem he)
  rw [hkey]
  exact joinedName_cellKey f q

/-- The names of cells that are put are joined. -/
theorem keeps_joined_put (table key : String) (cells : Cells) :
    Keeps Server.Joined (put table key cells) := by
  intro s hs
  cases h : s.tables.get? table with
  | none =>
    rw [put_of_missing h]
    exact hs
  | some t =>
    rw [put_of_found h]
    exact hs.insert_table ((hs table t h).mergeInto _ (joinedName_encodeCells cells)) rfl

/-- Deleting a row keeps the names joined. -/
theorem keeps_joined_delete (table key : String) : Keeps Server.Joined (delete table key) := by
  intro s hs
  cases h : s.tables.get? table with
  | none =>
    rw [delete_of_missing h]
    exact hs
  | some t =>
    rw [delete_of_found h]
    exact hs.insert_table ((hs table t h).erase _) rfl

/-- Dropping a table keeps the names joined. -/
theorem keeps_joined_deleteTable (table : String) : Keeps Server.Joined (deleteTable table) := by
  intro s hs
  rcases deleteTable_cases table s with ⟨-, h⟩ | ⟨-, h⟩ <;> rw [h]
  · exact hs.of_tables rfl
  · exact hs.erase_table rfl

end Gateway

namespace Server

/-- Joined names that come past the gateway keep the names joined. -/
theorem keeps_joined_mergeRow (table : String) (row : Bytes) {cells : List (Bytes × Bytes)}
    (hcells : ∀ e ∈ cells, JoinedName e.1) : Keeps Joined (mergeRow table row cells) := by
  intro s hs
  unfold mergeRow
  cases h : s.tables.get? table with
  | none =>
    rw [bind_of_error (Gateway.findTable_of_none h)]
    exact hs
  | some t =>
    rw [bind_of_ok (Gateway.findTable_of_some h)]
    exact hs.insert_table ((hs table t h).mergeInto row hcells) rfl

/-- A server that has no rows has joined rows. -/
theorem joined_withTables (spelling : NameSpelling) (suffix : String) (refuses : Bool)
    (tables : List (String × List String)) :
    (withTables spelling suffix refuses tables).Joined := by
  intro name t ht
  have hlast := (get?_insertAll_last ∅ _ name).symm.trans ht
  rw [get?_empty, Option.or_none] at hlast
  obtain ⟨e, -, heq⟩ := List.mem_map.mp (List.mem_reverse.mp (mem_of_lookupEntry hlast))
  obtain ⟨-, rfl⟩ := Prod.mk.inj heq
  exact ServerTable.joined_new e.2

end Server

namespace Store

/-- Every name of every row of a server behind the store is joined. -/
def Joined : Store → Prop
  | memory _ => True
  | gateway s => s.Joined

/-- Nothing that is done through a gateway takes joined rows apart. -/
theorem stable_joined (names : String → Prop) : Stable names Joined where
  tableExists table := keeps_onEither (fun _ h => h)
    (Gateway.keeps_joined (Gateway.leaves_tableExists table))
  tableFamilies table := keeps_onEither (fun _ h => h)
    (Gateway.keeps_joined (Gateway.leaves_tableFamilies table))
  put table key cells := keeps_onEither (fun _ h => h) (Gateway.keeps_joined_put table key cells)
  get table key := keeps_onEither (fun _ h => h)
    (Gateway.keeps_joined (Gateway.leaves_get table key))
  delete table key := keeps_onEither (fun _ h => h) (Gateway.keeps_joined_delete table key)
  forgetCalls st hst := by
    cases st <;> exact hst
  createTable table fs _ := keeps_onEither (fun _ h => h) fun s hs =>
    Server.Joined.insert_table (s := s) hs (ServerTable.joined_new fs.names) rfl
  deleteTable table _ := keeps_onEither (fun _ h => h) (Gateway.keeps_joined_deleteTable table)
  close := keeps_onEither (fun _ h => h) fun s hs => Server.Joined.of_tables (s := s) hs rfl
  sameContents st st' heq hst := by
    cases st with
    | memory m =>
      cases st' with
      | memory m' => trivial
      | gateway s' => cases heq
    | gateway s =>
      cases st' with
      | memory m' => trivial
      | gateway s' =>
        have hcontents : s.forgetCalls = s'.forgetCalls := Store.gateway.inj heq
        have htables : s.forgetCalls.tables = s'.forgetCalls.tables := by rw [hcontents]
        exact Server.Joined.of_tables (s := s) hst htables.symm

theorem keeps_joined_mergeRow (table : String) (row : Bytes) {cells : List (Bytes × Bytes)}
    (hcells : ∀ e ∈ cells, JoinedName e.1) : Keeps Joined (mergeRow table row cells) :=
  keeps_onEither (fun _ h => h) (Server.keeps_joined_mergeRow table row hcells)

end Store

end WideColumn
