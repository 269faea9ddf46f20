import WideColumn.Proofs.Collections.OrderedMap
import WideColumn.Schema

/-!
# Tables under their names

A live schema files every table under the name that the table has itself, and so
gives the same answers as the plain list of its tables, in which no name comes
twice. A table that is added again keeps its position, and one that was removed
before comes last. What is frozen of a schema is this list.
-/

namespace WideColumn

open OrderedMap

namespace LiveSchema

/-- Every table is filed under its own name. -/
def Keyed (S : LiveSchema) : Prop := ∀ n t, S.getTable n = some t → t.name = n

variable {S : LiveSchema} {t : Table} {n : String}

theorem keyed_empty (name : String) : Keyed ⟨name, ∅⟩ := nofun

/-- Adding a table files it under its own name. -/
theorem keyed_addTable (h : S.Keyed) (t : Table) : (S.addTable t).Keyed := by
  intro n u hu
  rw [getTable_addTable] at hu
  split at hu
  · rename_i hn
    cases hu
    exact hn
  · exact h n u hu

theorem keyed_removeTable (h : S.Keyed) (k : String) : (S.removeTable k).Keyed := by
  intro n u hu
  rw [getTable_removeTable] at hu
  split at hu
  · cases hu
  · exact h n u hu

/-- However many tables are added, each is filed under its own name. -/
theorem keyed_foldl_addTable (h : S.Keyed) (tables : List Table) :
    (tables.foldl addTable S).Keyed := by
  induction tables generalizing S with
  | nil => exact h
  | cons t tables ih => exact ih (keyed_addTable h t)

theorem keyed_ofTables (name : String) (tables : List Table) : (ofTables name tables).Keyed :=
  keyed_foldl_addTable (keyed_empty name) tables

theorem name_ofTables (name : String) (tables : List Table) : (ofTables name tables).name = name := by
  have hname : ∀ S : LiveSchema, (tables.foldl addTable S).name = S.name := by
    induction tables with
    | nil => exact fun _ => rfl
    | cons t tables ih => exact fun S => ih (S.addTable t)
  exact hname ⟨name, ∅⟩

/-- A schema finds no table exactly under the names that it does not list. -/
theorem getTable_eq_none_iff : S.getTable n = none ↔ n ∉ S.tableNames :=
  get?_eq_none_iff S.byName n

theorem nodup_tableNames (S : LiveSchema) : S.tableNames.Nodup := S.byName.nodup_keys

/-- Every entry is a table with its own name. -/
theorem Keyed.entry (h : S.Keyed) {e : String × Table} (he : e ∈ S.byName.entries) :
    e.2.name = e.1 :=
  h e.1 e.2 (mem_entries_iff.mp he)

/-- The names are those of the tables, in their order. -/
theorem Keyed.tableNames (h : S.Keyed) : S.tableNames = S.tables.map Table.name := by
  rw [tables, values, List.map_map]
  exact List.map_congr_left fun e he => (h.entry he).symm

/-- A table is found under a name exactly if it is among the tables and has the name. -/
theorem Keyed.getTable_eq_some_iff (h : S.Keyed) :
    S.getTable n = some t ↔ t ∈ S.tables ∧ t.name = n := by
  constructor
  · intro ht
    exact ⟨List.mem_map.mpr ⟨(n, t), mem_entries_iff.mpr ht, rfl⟩, h n t ht⟩
  · rintro ⟨hmem, rfl⟩
    obtain ⟨e, he, rfl⟩ := List.mem_map.mp hmem
    rw [h.entry he]
    exact mem_entries_iff.mp he

/-- A table of a known name takes the position of the one that it replaces. -/
theorem Keyed.tables_addTable_of_mem (h : S.Keyed) (ht : t.name ∈ S.tableNames) :
    (S.addTable t).tables = S.tables.map fun u => if u.name = t.name then t else u := by
  have hentries := entries_insert_of_mem ht t
  simp only [tables, values, addTable, hentries, List.map_map]
  refine List.map_congr_left fun e he => ?_
  simp only [Function.comp_apply, h.entry he]
  split <;> rfl

/-- A table of a new name comes last. -/
theorem tables_addTable_of_not_mem (ht : t.name ∉ S.tableNames) :
    (S.addTable t).tables = S.tables ++ [t] := by
  have hentries : (S.byName.insert t.name t).entries = S.byName.entries ++ [(t.name, t)] :=
    insertEntry_of_not_mem ht t
  simp only [tables, values, addTable, hentries, List.map_append, List.map_cons, List.map_nil]

/-- Removing a table leaves the others in their order. -/
theorem Keyed.tables_removeTable (h : S.Keyed) (k : String) :
    (S.removeTable k).tables = S.tables.filter fun u => u.name ≠ k := by
  simp only [tables, values, removeTable, erase, List.filter_map]
  refine congrArg _ (List.filter_congr fun e he => ?_)
  simp only [Function.comp_apply, h.entry he]

/-- A table that is removed and added again comes last. -/
theorem Keyed.tables_addTable_removeTable (h : S.Keyed) (t : Table) :
    ((S.removeTable t.name).addTable t).tables =
      S.tables.filter (fun u => u.name ≠ t.name) ++ [t] := by
  have hgone : t.name ∉ (S.removeTable t.name).tableNames := by
    rw [← getTable_eq_none_iff, getTable_removeTable, if_pos rfl]
  rw [tables_addTable_of_not_mem hgone, h.tables_removeTable]

/-- What holds of the tables of a live schema at any time. -/
structure InOrder (S : LiveSchema) : Prop where
  /-- No name comes twice. -/
  nodup : S.tableNames.Nodup
  /-- The names are those of the tables, in their order. -/
  names : S.tableNames = S.tables.map Table.name
  /-- A table is found under its name, and under no other. -/
  found : ∀ n t, S.getTable n = some t ↔ t ∈ S.tables ∧ t.name = n
  /-- Nothing is found exactly under the names that are not listed. -/
  missing : ∀ n, S.getTable n = none ↔ n ∉ S.tableNames
  /-- A table of a known name takes the position of the one that it replaces. -/
  replaced : ∀ t, t.name ∈ S.tableNames →
    (S.addTable t).tableNames = S.tableNames ∧
      (S.addTable t).tables = S.tables.map fun u => if u.name = t.name then t else u
  /-- A table of a new name comes last. -/
  appended : ∀ t, t.name ∉ S.tableNames →
    (S.addTable t).tableNames = S.tableNames ++ [t.name] ∧ (S.addTable t).tables = S.tables ++ [t]
  /-- A table that is removed and added again comes last. -/
  readded : ∀ t,
    ((S.removeTable t.name).addTable t).tableNames =
        S.tableNames.filter (fun n => n ≠ t.name) ++ [t.name] ∧
      ((S.removeTable t.name).addTable t).tables =
        S.tables.filter (fun u => u.name ≠ t.name) ++ [t]

/-- A schema that files its tables under their names lists each of them once. -/
theorem Keyed.inOrder (h : S.Keyed) : S.InOrder where
  nodup := S.nodup_tableNames
  names := h.tableNames
  found _ _ := h.getTable_eq_some_iff
  missing _ := getTable_eq_none_iff
  replaced t ht := ⟨(keys_insert S.byName t.name t).trans (if_pos ht), h.tables_addTable_of_mem ht⟩
  appended t ht := ⟨(keys_insert S.byName t.name t).trans (if_neg ht), tables_addTable_of_not_mem ht⟩
  readded t := by
    have hgone : t.name ∉ (S.removeTable t.name).byName.keys := by
      rw [← get?_eq_none_iff, removeTable, get?_erase, if_pos rfl]
    refine ⟨?_, h.tables_addTable_removeTable t⟩
    exact ((keys_insert _ t.name t).trans (if_neg hgone)).trans
      (congrArg (· ++ [t.name]) (keys_erase S.byName t.name))

end LiveSchema

/-- Two schemas give the same answers. -/
structure Schema.Agree (a b : Schema) : Prop where
  /-- They have the same name. -/
  name : a.name = b.name
  /-- They have the same tables, in the same order. -/
  tables : a.tables = b.tables
  /-- They list the same names. -/
  tableNames : a.tableNames = b.tableNames
  /-- They find the same table under every name. -/
  getTable : ∀ n, a.getTable n = b.getTable n

/-- The first table of a name is the one that is filed under the name. -/
theorem find?_map_snd {l : List (String × Table)} (h : ∀ e ∈ l, e.2.name = e.1) (n : String) :
    (l.map Prod.snd).find? (fun t => t.name = n) = lookupEntry n l := by
  induction l with
  | nil => rfl
  | cons e l ih =>
    have hhead := h e (List.mem_cons_self ..)
    have htail := ih fun e' he' => h e' (List.mem_cons_of_mem e he')
    rw [List.map_cons, List.find?_cons, lookupEntry, hhead, htail]
    by_cases hn : e.1 = n <;> simp [hn]

/-- A frozen schema gives the same answers as the live one that it was made of. -/
theorem LiveSchema.Keyed.agree_freeze {S : LiveSchema} (h : S.Keyed) :
    (Schema.live S).Agree (.frozen S.freeze) where
  name := rfl
  tables := rfl
  tableNames := h.tableNames
  getTable n := (find?_map_snd (fun _ he => h.entry he) n).symm

end WideColumn
