import WideColumn.Proofs.Collections.NameSet
import WideColumn.Proofs.Collections.OrderedMap
import WideColumn.Proofs.Operation.Frame
import WideColumn.Store.Gateway

/-!
# What a store behind a server does

One lemma for each operation says what it answers, which call it leaves on
record and what becomes of the tables of the server. Names come back through
the spelling and the suffix of the server as they were sent.
-/

namespace WideColumn.Gateway

open Operation OrderedMap

variable {s : Server} {table key : String} {t : ServerTable}

/-- A list of spelled names is read back as the names. -/
theorem decodeNames_map_spell (p : NameSpelling) (names : List String) :
    decodeNames (names.map p.spell) = .ok names := by
  induction names with
  | nil => rfl
  | cons n rest ih => simp only [List.map_cons, decodeNames, WireName.decode_spell, ih]

/-- The gateway finds a table among the names of the server exactly when the server has it. -/
theorem tableExists_apply (table : String) (s : Server) :
    tableExists table s = (.ok (s.tables.contains table), s.record .tables) := by
  have hnames : Server.tableNames s =
      (.ok (s.tables.keys.map s.spelling.spell), s.record .tables) := rfl
  unfold tableExists
  rw [bind_of_ok hnames, decodeNames_map_spell]
  have hmem : decide (table ∈ s.tables.keys) = s.tables.contains table := by
    rw [Bool.eq_iff_iff, decide_eq_true_iff, contains_iff_mem_keys]
  rw [← hmem]
  rfl

/-- A table that the server has is found. -/
theorem findTable_of_some (h : s.tables.get? table = some t) :
    Server.findTable table s = (.ok t, s) := by
  simp only [Server.findTable, h]

/-- A table that the server does not have is missed. -/
theorem findTable_of_none (h : s.tables.get? table = none) :
    Server.findTable table s = (.error .missingKey, s) := by
  simp only [Server.findTable, h]

/-- A table is made in place of one of that name, and starts empty. -/
theorem createTable_apply (table : String) (fs : NameSet) (s : Server) :
    createTable table fs s =
      (.ok (), { s.record (.createTable table fs.names) with
        tables := s.tables.insert table ⟨fs.names, ∅⟩ }) := rfl

/-- A table is dropped, or else the server does not have it. -/
theorem deleteTable_cases (table : String) (s : Server) :
    (s.tables.contains table = false ∧
      deleteTable table s = (.error .missingKey, s.record (.deleteTable table true))) ∨
    (s.tables.contains table = true ∧
      deleteTable table s =
        (.ok (), { s.record (.deleteTable table true) with tables := s.tables.erase table })) := by
  unfold deleteTable Server.deleteTable
  cases h : s.tables.contains table with
  | false => exact .inl ⟨rfl, rfl⟩
  | true => exact .inr ⟨rfl, rfl⟩

/-- Cells for a table that the server has are encoded and merged into the row. -/
theorem put_of_found (h : s.tables.get? table = some t) (key : String) (cells : Cells) :
    put table key cells s =
      (.ok (), { s.record (.put table (.ofText key) (encodeCells cells).entries) with
        tables := s.tables.insert table
          (Server.mergeInto t (.ofText key) (encodeCells cells).entries) }) := by
  unfold put
  rw [bind_of_ok (findTable_of_some h)]
  rfl

/-- Cells for a table that the server does not have are refused by the look-up. -/
theorem put_of_missing (h : s.tables.get? table = none) (key : String) (cells : Cells) :
    put table key cells s = (.error .missingKey, s) :=
  bind_of_error (findTable_of_none h)

/-- A row of a table that the server has is dropped. -/
theorem delete_of_found (h : s.tables.get? table = some t) (key : String) :
    delete table key s =
      (.ok (), { s.record (.delete table (.ofText key)) with
        tables := s.tables.insert table { t with rows := t.rows.erase (.ofText key) } }) := by
  unfold delete
  rw [bind_of_ok (findTable_of_some h)]
  rfl

theorem delete_of_missing (h : s.tables.get? table = none) (key : String) :
    delete table key s = (.error .missingKey, s) :=
  bind_of_error (findTable_of_none h)

/-- A row of a table that the server has is decoded, or an empty one. -/
theorem get_of_found (h : s.tables.get? table = some t) (key : String) :
    get table key s =
      (decodeRow ((t.rows.get? (.ofText key)).getD ∅), s.record (.row table (.ofText key))) := by
  unfold get
  rw [bind_of_ok (findTable_of_some h)]
  rfl

/-- The families of a table come back without the colons at their ends. -/
theorem tableFamilies_of_found (h : s.tables.get? table = some t) :
    tableFamilies table s =
      (.ok (NameSet.ofList ((t.families.map (· ++ s.suffix)).map trimColons)),
        s.record (.families table)) := by
  have hnames : Server.familyNames table t s =
      (.ok ((t.families.map (· ++ s.suffix)).map s.spelling.spell),
        s.record (.families table)) := by
    rw [List.map_map]
    rfl
  unfold tableFamilies
  rw [bind_of_ok (findTable_of_some h), bind_of_ok hnames, decodeNames_map_spell]
  rfl

end WideColumn.Gateway
