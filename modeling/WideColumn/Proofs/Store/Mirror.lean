import WideColumn.Proofs.Operation.Agreement
import WideColumn.Proofs.Store.Holdings
import WideColumn.Proofs.Store.Wire

/-!
# A server that mirrors a memory store

A server mirrors a memory store if both have the same tables with the same
families and every row of the server holds the cells of the row in memory. As
long as tables are new, families have no colon and cells lie in the families of
their table, every operation of a store agrees on the two, and keeps the one the
mirror of the other.
-/

namespace WideColumn

open Operation OrderedMap

/-- Under every key the table of a server holds the cells that are stored in memory. -/
def ServerTable.HoldsRows (T : ServerTable) (rows : Rows) : Prop :=
  ∀ key, ServerRow.Holds ((T.rows.get? (.ofText key)).getD ∅)
    ((OrderedMap.get? rows key).getD ∅)

namespace ServerTable.HoldsRows

variable {T : ServerTable} {rows : Rows}

/-- A table without rows holds no rows. -/
theorem empty (families : List String) : HoldsRows ⟨families, ∅⟩ ∅ :=
  fun _ => ServerRow.Holds.empty

/-- A row that is bound on both sides is held if its cells are. -/
theorem insert (h : T.HoldsRows rows) (key : String) {row : ServerRow} {cells : Cells}
    (hrow : row.Holds cells) :
    HoldsRows { T with rows := T.rows.insert (.ofText key) row }
      (OrderedMap.insert rows key cells) := by
  intro k
  rw [get?_insert, get?_insert]
  by_cases hk : key = k
  · subst hk
    rw [if_pos rfl, if_pos rfl]
    exact hrow
  · rw [if_neg hk, if_neg (mt Bytes.ofText_injective hk)]
    exact h k

/-- Merging what is sent for cells into a row lays the cells on top of it. -/
theorem lay (h : T.HoldsRows rows) (key : String) {cells : Cells}
    (hcells : ∀ f ∈ cells.families, ColonFree f) :
    HoldsRows (Server.mergeInto T (.ofText key) (Gateway.encodeCells cells).entries)
      (rows.lay key cells) :=
  h.insert key ((h key).overlay (Gateway.holds_encodeCells hcells))

/-- A row that is dropped on both sides is held as no row. -/
theorem erase (h : T.HoldsRows rows) (key : String) :
    HoldsRows { T with rows := T.rows.erase (.ofText key) } (OrderedMap.erase rows key) := by
  intro k
  rw [get?_erase, get?_erase]
  by_cases hk : key = k
  · subst hk
    rw [if_pos rfl, if_pos rfl]
    exact ServerRow.Holds.empty
  · rw [if_neg hk, if_neg (mt Bytes.ofText_injective hk)]
    exact h k

end ServerTable.HoldsRows

/-- The server has the tables, the families and the cells of a memory store. -/
structure Server.Mirrors (s : Server) (m : Memory) : Prop where
  /-- What follows a family name that is given back is nothing or a colon. -/
  suffix : s.suffix = "" ∨ s.suffix = ":"
  /-- Both catalogues of the memory store know the same tables. -/
  paired : m.Paired
  /-- Both have the same tables with the same families. -/
  families : s.holdings = m.families
  /-- No family of a table has a colon. -/
  colonFree : ∀ table fs, m.families.get? table = some fs → ∀ f ∈ fs, ColonFree f
  /-- The rows of a table hold the cells of its rows in memory. -/
  rows : ∀ table T rows, s.tables.get? table = some T → m.rows.get? table = some rows →
    T.HoldsRows rows

namespace Server.Mirrors

variable {s : Server} {m : Memory} {table : String} {fs : NameSet} {T : ServerTable} {rows : Rows}

/-- A server without tables mirrors a new memory store. -/
theorem fresh (spelling : NameSpelling) {suffix : String} (hsuffix : suffix = "" ∨ suffix = ":")
    (refuses : Bool) : Mirrors (withTables spelling suffix refuses []) .empty where
  suffix := hsuffix
  paired := Memory.paired_empty
  families := rfl
  colonFree _ _ h := nomatch h
  rows _ _ _ h := nomatch h

/-- Noting a call does not change what a server mirrors. -/
theorem record (h : s.Mirrors m) (c : Call) : (s.record c).Mirrors m :=
  ⟨h.suffix, h.paired, h.families, h.colonFree, h.rows⟩

/-- A table of the memory store is a table of the server, with the same families and rows. -/
theorem exists_table (h : s.Mirrors m) (hfs : m.families.get? table = some fs) :
    ∃ T rows, s.tables.get? table = some T ∧ NameSet.ofList T.families = fs ∧
      m.rows.get? table = some rows ∧ T.HoldsRows rows := by
  obtain ⟨rows, hrows⟩ := h.paired.exists_rows hfs
  obtain ⟨T, hT, hfam⟩ := exists_table_of_held (h.families ▸ hfs)
  exact ⟨T, rows, hT, hfam, hrows, h.rows table T rows hT hrows⟩

/-- Both know the same table names. -/
theorem contains_eq (h : s.Mirrors m) (table : String) :
    s.tables.contains table = m.families.contains table := by
  rw [← h.families, contains, contains, holdings, get?_mapValues, Option.isSome_map]

/-- New rows that are held on both sides keep the mirror. -/
theorem insert_rows (h : s.Mirrors m) (hT : s.tables.get? table = some T)
    (hrows : m.rows.get? table = some rows) {bytes : OrderedMap Bytes ServerRow} {rows' : Rows}
    (hheld : ServerTable.HoldsRows { T with rows := bytes } rows') :
    Mirrors { s with tables := s.tables.insert table { T with rows := bytes } }
      { m with rows := m.rows.insert table rows' } where
  suffix := h.suffix
  paired := h.paired.insert_rows hrows rows'
  families := (holdings_insert_rows hT bytes).trans h.families
  colonFree := h.colonFree
  rows t U R hU hR := by
    rw [get?_insert] at hU hR
    by_cases ht : table = t
    · rw [if_pos ht] at hU hR
      cases hU
      cases hR
      exact hheld
    · rw [if_neg ht] at hU hR
      exact h.rows t U R hU hR

/-- A new table without rows keeps the mirror if its families have no colon. -/
theorem insert_table (h : s.Mirrors m) (hnew : m.families.get? table = none)
    (hfree : ∀ f ∈ fs, ColonFree f) :
    Mirrors { s with tables := s.tables.insert table ⟨fs.names, ∅⟩ }
      { m with families := m.families.insert table fs, rows := m.rows.insert table ∅ } where
  suffix := h.suffix
  paired := by
    have hkeep := Memory.keeps_paired_createTable table fs m h.paired
    rcases Memory.createTable_cases m table fs with ⟨hold, -⟩ | ⟨-, hmade⟩
    · rw [contains, hnew] at hold
      cases hold
    · rwa [hmade] at hkeep
  families := by
    rw [← h.families]
    simp only [holdings, mapValues_insert, NameSet.ofList_names]
  colonFree t gs hgs := by
    rw [get?_insert] at hgs
    split at hgs
    · cases hgs
      exact hfree
    · exact h.colonFree t gs hgs
  rows t U R hU hR := by
    rw [get?_insert] at hU hR
    by_cases ht : table = t
    · rw [if_pos ht] at hU hR
      cases hU
      cases hR
      exact ServerTable.HoldsRows.empty fs.names
    · rw [if_neg ht] at hU hR
      exact h.rows t U R hU hR

/-- A table that is dropped on both sides leaves the mirror of the others. -/
theorem erase_table (h : s.Mirrors m) (hfs : m.families.get? table = some fs)
    (hrows : m.rows.get? table = some rows) :
    Mirrors { s with tables := s.tables.erase table }
      { m with families := m.families.erase table, rows := m.rows.erase table } where
  suffix := h.suffix
  paired := by
    have hkeep := Memory.keeps_paired_deleteTable table m h.paired
    rwa [Memory.deleteTable_of_present hrows hfs] at hkeep
  families := by
    rw [← h.families]
    exact mapValues_erase (fun t => NameSet.ofList t.families) s.tables table
  colonFree t gs hgs := by
    rw [get?_erase] at hgs
    split at hgs
    · cases hgs
    · exact h.colonFree t gs hgs
  rows t U R hU hR := by
    rw [get?_erase] at hU hR
    by_cases ht : table = t
    · rw [if_pos ht] at hU
      cases hU
    · rw [if_neg ht] at hU hR
      exact h.rows t U R hU hR

end Server.Mirrors

namespace Memory

/-- The server mirrors the memory store, which is a given one. -/
def Mirrored (m m' : Memory) (s : Server) : Prop := m' = m ∧ s.Mirrors m

/-- The server mirrors the memory store. -/
def Mirroring (m : Memory) (s : Server) : Prop := s.Mirrors m

/-- A server that mirrors a given store mirrors a store. -/
theorem Mirrored.mirroring {m m' : Memory} {s : Server} (h : m.Mirrored m' s) :
    m'.Mirroring s := by
  obtain ⟨rfl, hmirror⟩ := h
  exact hmirror

variable {m : Memory} {table : String} {fs : NameSet} {failed : Memory → Server → Prop}

/-- Both know a table or both do not. -/
theorem agree_tableExists (table : String) :
    Agree m.Mirrored (fun a b => a = m.families.contains table ∧ b = a) m.Mirrored failed
      (tableExists table) (Gateway.tableExists table) := by
  rintro m' s ⟨rfl, h⟩
  rw [Gateway.tableExists_apply, h.contains_eq table]
  exact .value ⟨rfl, rfl⟩ ⟨rfl, h.record _⟩

/-- A new table is made on both sides. -/
theorem agree_createTable (hnew : m.families.get? table = none) (hfree : ∀ f ∈ fs, ColonFree f) :
    Agree m.Mirrored Eq Mirroring failed (createTable table fs) (Gateway.createTable table fs) := by
  rintro m' s ⟨rfl, h⟩
  rcases createTable_cases m' table fs with ⟨hold, -⟩ | ⟨-, hmade⟩
  · rw [contains, hnew] at hold
    cases hold
  · rw [hmade, Gateway.createTable_apply]
    exact .value rfl ((h.record _).insert_table hnew hfree)

/-- A table that both have is dropped on both sides. -/
theorem agree_deleteTable (hfs : m.families.get? table = some fs) :
    Agree m.Mirrored Eq Mirroring failed (deleteTable table) (Gateway.deleteTable table) := by
  rintro m' s ⟨rfl, h⟩
  obtain ⟨rows, hrows⟩ := h.paired.exists_rows hfs
  rw [deleteTable_of_present hrows hfs]
  rcases Gateway.deleteTable_cases table s with ⟨hlacks, -⟩ | ⟨-, hserver⟩
  · rw [h.contains_eq, contains, hfs] at hlacks
    cases hlacks
  · rw [hserver]
    exact .value rfl ((h.record _).erase_table hfs hrows)

/-- Both tell the same families of a table that both have. -/
theorem agree_tableFamilies (hfs : m.families.get? table = some fs) :
    Agree m.Mirrored Eq Mirroring failed (tableFamilies table) (Gateway.tableFamilies table) := by
  rintro m' s ⟨rfl, h⟩
  obtain ⟨T, rows, hT, hfam, hrows, -⟩ := h.exists_table hfs
  have hnames : (T.families.map (· ++ s.suffix)).map Gateway.trimColons = T.families := by
    rw [List.map_map]
    refine (List.map_congr_left fun f hf => ?_).trans (List.map_id _)
    have hmem : f ∈ fs := by
      rw [← hfam]
      exact NameSet.mem_ofList.mpr hf
    exact Gateway.trimColons_append_of_colonFree (h.colonFree table fs hfs f hmem) h.suffix
  rw [tableFamilies_of_present hrows hfs, Gateway.tableFamilies_of_found hT, hnames, hfam]
  exact .value rfl (h.record _)

/-- The server gives back of a row what can be given back of the row in memory. -/
theorem agree_get (hfs : m.families.get? table = some fs) (key : String) :
    Agree m.Mirrored (fun a b => Option.Rel Cells.Same (Cells.wireRow a) b) Mirroring failed
      (get table key) (Gateway.get table key) := by
  rintro m' s ⟨rfl, h⟩
  obtain ⟨T, rows, hT, -, hrows, hheld⟩ := h.exists_table hfs
  obtain ⟨answer, hanswer, hsame⟩ := Gateway.decodeRow_of_holds (hheld key)
  have habsent : Cells.wireRow (some ((OrderedMap.get? rows key).getD ∅)) =
      Cells.wireRow (OrderedMap.get? rows key) := by
    cases OrderedMap.get? rows key <;> rfl
  rw [habsent] at hsame
  rw [get_of_rows hrows, Gateway.get_of_found hT, hanswer]
  exact .value hsame (h.record _)

/-- Cells of known families that can be copied are laid on top of a row on both sides. -/
theorem agree_put (hfs : m.families.get? table = some fs) (key : String) {cells : Cells}
    (hknown : ∀ f ∈ cells.families, f ∈ fs) (hcopy : cells.isCopyable = true) :
    Agree m.Mirrored Eq Mirroring failed (put table key cells)
      (Gateway.put table key cells) := by
  rintro m' s ⟨rfl, h⟩
  obtain ⟨T, rows, hT, -, hrows, hheld⟩ := h.exists_table hfs
  have hfree : ∀ f ∈ cells.families, ColonFree f :=
    fun f hf => h.colonFree table fs hfs f (hknown f hf)
  rw [put_of_known hrows hfs hknown, Cells.outcome, if_pos hcopy, Cells.written_of_isCopyable hcopy,
    Gateway.put_of_found hT]
  exact .value rfl ((h.record _).insert_rows hT hrows (hheld.lay key hfree))

/-- A row is dropped on both sides. -/
theorem agree_delete (hfs : m.families.get? table = some fs) (key : String) :
    Agree m.Mirrored Eq Mirroring failed (delete table key) (Gateway.delete table key) := by
  rintro m' s ⟨rfl, h⟩
  obtain ⟨T, rows, hT, -, hrows, hheld⟩ := h.exists_table hfs
  rw [delete_of_rows hrows, Gateway.delete_of_found hT]
  exact .value rfl ((h.record _).insert_rows hT hrows (hheld.erase key))

end Memory

end WideColumn
