import WideColumn.Proofs.Store.Atomicity
import WideColumn.Proofs.Store.History

/-!
# The two catalogues of a memory store

A memory store knows each table twice, by its families and by its rows, and its
operations ask now the one catalogue and now the other. Whatever is done to a
store, successful or not, the two stay in step: they know the same tables, and no
row has a family that its table lacks. So a table that an operation has found in
one catalogue is never missed in the other, and all operations agree on which
tables are there.
-/

namespace WideColumn

open Operation OrderedMap

/-- The rows have cells of the given families only, which can be copied. -/
def Rows.LieIn (rows : Rows) (fs : NameSet) : Prop :=
  ∀ key cells, OrderedMap.get? rows key = some cells →
    (∀ f ∈ cells.families, f ∈ fs) ∧ cells.isCopyable = true

namespace Rows.LieIn

variable {rows : Rows} {fs : NameSet}

theorem empty (fs : NameSet) : Rows.LieIn ∅ fs := nofun

/-- The row under a key, there or not, has cells of the given families, which can be copied. -/
theorem stored (h : rows.LieIn fs) (key : String) :
    (∀ f ∈ ((OrderedMap.get? rows key).getD ∅).families, f ∈ fs) ∧
      ((OrderedMap.get? rows key).getD ∅).isCopyable = true := by
  cases hrow : OrderedMap.get? rows key with
  | none => exact ⟨nofun, rfl⟩
  | some row => exact h key row hrow

/-- Cells of the given families that can be copied may be laid on top of any row. -/
theorem lay (h : rows.LieIn fs) (key : String) {cells : Cells}
    (hcells : ∀ f ∈ cells.families, f ∈ fs) (hcopy : cells.isCopyable = true) :
    (rows.lay key cells).LieIn fs := by
  intro k row hk
  rw [Rows.lay, get?_insert] at hk
  split at hk
  · cases hk
    have hoverlay := Cells.isOverlay_overlay ((OrderedMap.get? rows key).getD ∅) cells
    obtain ⟨hold, hcopied⟩ := h.stored key
    exact ⟨fun f hf => ((hoverlay.families f).mp hf).elim (hold f) (hcells f),
      hoverlay.isCopyable hcopied hcopy⟩
  · exact h k row hk

/-- Deleting a row leaves the others in their families. -/
theorem erase (h : rows.LieIn fs) (key : String) : Rows.LieIn (OrderedMap.erase rows key) fs := by
  intro k stored hk
  rw [get?_erase] at hk
  split at hk
  · cases hk
  · exact h k stored hk

end Rows.LieIn

namespace Memory

variable {m : Memory} {table key : String} {rows : Rows} {fs : NameSet}

/-- The catalogues know the same tables, and the rows of a table have cells of its families only. -/
structure InStep (m : Memory) : Prop where
  /-- A table is in the one catalogue exactly when it is in the other. -/
  paired : m.Paired
  /-- The families of the rows are those of the table. -/
  lieIn : ∀ table fs rows, m.families.get? table = some fs → m.rows.get? table = some rows →
    rows.LieIn fs

/-- The catalogues of an empty store are in step. -/
theorem inStep_empty : InStep empty := ⟨paired_empty, nofun⟩

/-- Rows of the table's families may take the place of the rows of a table. -/
theorem InStep.insert_rows (h : m.InStep) (hrows : m.rows.get? table = some rows) {rows' : Rows}
    (hrows' : ∀ fs, m.families.get? table = some fs → rows'.LieIn fs) :
    InStep { m with rows := m.rows.insert table rows' } := by
  refine ⟨h.paired.insert_rows hrows rows', fun t gs R hgs hR => ?_⟩
  change (m.rows.insert table rows').get? t = some R at hR
  rw [get?_insert] at hR
  split at hR
  · rename_i ht
    cases hR
    exact hrows' gs (ht ▸ hgs)
  · exact h.lieIn t gs R hgs hR

/-- A table that is made has no rows, whatever its families are. -/
theorem keeps_inStep_createTable (table : String) (fs : NameSet) :
    Keeps InStep (createTable table fs) := by
  intro m hm
  refine ⟨keeps_paired_createTable table fs m hm.paired, fun t gs R hgs hR => ?_⟩
  rcases createTable_cases m table fs with ⟨-, h⟩ | ⟨-, h⟩ <;> rw [h] at hgs hR
  · exact hm.lieIn t gs R hgs hR
  · simp only [get?_insert] at hgs hR
    split at hR
    · cases hR
      exact Rows.LieIn.empty gs
    · rename_i ht
      rw [if_neg ht] at hgs
      exact hm.lieIn t gs R hgs hR

/-- A table that is dropped leaves neither families nor rows behind. -/
theorem keeps_inStep_deleteTable (table : String) : Keeps InStep (deleteTable table) := by
  intro m hm
  refine ⟨keeps_paired_deleteTable table m hm.paired, fun t gs R hgs hR => ?_⟩
  rcases deleteTable_cases m table with ⟨e, h⟩ | ⟨rows, fs, -, -, h⟩ <;> rw [h] at hgs hR
  · exact hm.lieIn t gs R hgs hR
  · simp only [get?_erase] at hgs hR
    split at hR
    · cases hR
    · rename_i ht
      rw [if_neg ht] at hgs
      exact hm.lieIn t gs R hgs hR

/-- Cells are put only if the table has their families. -/
theorem keeps_inStep_put (table key : String) (cells : Cells) :
    Keeps InStep (put table key cells) := by
  intro m hm
  rcases put_cases m table key cells with ⟨e, h, -⟩ | ⟨rows, fs, hrows, hfs, hcells, h⟩ <;>
    rw [h]
  · exact hm
  · refine hm.insert_rows hrows fun gs hgs => ?_
    cases hfs.symm.trans hgs
    exact (hm.lieIn table fs rows hfs hrows).lay key
      (fun f hf => hcells f (Cells.mem_families_of_written hf)) (Cells.isCopyable_written cells)

/-- Deleting a row keeps the catalogues in step. -/
theorem keeps_inStep_delete (table key : String) : Keeps InStep (delete table key) := by
  intro m hm
  rcases delete_cases m table key with ⟨e, h⟩ | ⟨rows, hrows, h⟩ <;> rw [h]
  · exact hm
  · exact hm.insert_rows hrows fun gs hgs => (hm.lieIn table gs rows hgs hrows).erase key

/-- A use of a store: a call that may change it, a question, or its closing. -/
inductive Use where
  /-- A call that may change the store. -/
  | call (c : Call)
  /-- Ask for a row. -/
  | get (table key : String)
  /-- Ask for the families of a table. -/
  | tableFamilies (table : String)
  /-- Ask whether a table exists. -/
  | tableExists (table : String)
  /-- Close the store. -/
  | close

namespace Use

/-- What the use does to a store; the answer to a question is left out. -/
def operation : Use → Operation Memory Unit
  | call c => c.operation
  | get table key => do
    let _ ← Memory.get table key
    return ()
  | tableFamilies table => do
    let _ ← Memory.tableFamilies table
    return ()
  | tableExists table => do
    let _ ← Memory.tableExists table
    return ()
  | close => Memory.close

/-- The table without which the use is refused. -/
def needs : Use → Option String
  | call (.createTable _ _) | tableExists _ | close => none
  | call c => some c.table
  | get table _ | tableFamilies table => some table

/-- Every use keeps the catalogues in step. -/
theorem keeps_inStep (u : Use) : Keeps InStep u.operation := by
  cases u with
  | call c =>
    cases c with
    | createTable table fs => exact keeps_inStep_createTable table fs
    | deleteTable table => exact keeps_inStep_deleteTable table
    | put table key cells => exact keeps_inStep_put table key cells
    | delete table key => exact keeps_inStep_delete table key
  | get table key => exact (leaves_get table key).keeps.bind fun _ => .pure ()
  | tableFamilies table => exact (leaves_tableFamilies table).keeps.bind fun _ => .pure ()
  | tableExists table => exact (leaves_tableExists table).keeps.bind fun _ => .pure ()
  | close => exact fun m hm => ⟨hm.paired, hm.lieIn⟩

/-- A use that needs a table is refused if the table is not there. -/
theorem refused_of_missing {u : Use} (hu : u.needs = some table)
    (hrows : m.rows.get? table = none) : u.operation m = (.error (.noSuchTable table), m) := by
  cases u with
  | call c =>
    cases c with
    | createTable => cases hu
    | deleteTable | put | delete =>
      cases hu
      exact bind_of_error (tableRows_of_none hrows)
  | get | tableFamilies =>
    cases hu
    exact bind_of_error (bind_of_error (tableRows_of_none hrows))
  | tableExists | close => cases hu

/-- The outcome is no complaint of something that was not found. -/
def Finds (r : Except Error Unit) : Prop :=
  r ≠ .error .missingKey ∧ ∀ name, r ≠ .error (.noSuchTable name)

theorem finds_ok : Finds (.ok ()) := ⟨nofun, nofun⟩

theorem Finds.of_eq {r r' : Except Error Unit} (h : Finds r) (hr : r' = r) : Finds r' := by
  rwa [hr]

/-- A use that needs a table finds all that it looks up if both catalogues know the table. -/
theorem finds_of_present {u : Use} (hu : u.needs = some table)
    (hrows : m.rows.get? table = some rows) (hfs : m.families.get? table = some fs) :
    Finds (u.operation m).1 := by
  cases u with
  | call c =>
    cases c with
    | createTable => cases hu
    | deleteTable =>
      cases hu
      exact finds_ok.of_eq (congrArg Prod.fst (deleteTable_of_present hrows hfs))
    | put table key cells =>
      cases hu
      by_cases hcells : ∀ f ∈ cells.families, f ∈ fs
      · have houtcome : Finds cells.outcome := by
          unfold Cells.outcome
          split
          · exact finds_ok
          · exact ⟨nofun, nofun⟩
        exact houtcome.of_eq (congrArg Prod.fst (put_of_known hrows hfs hcells))
      · refine Finds.of_eq ?_ (congrArg Prod.fst (put_of_unknown hrows hfs hcells))
        exact ⟨nofun, nofun⟩
    | delete =>
      cases hu
      exact finds_ok.of_eq (congrArg Prod.fst (delete_of_rows hrows))
  | get =>
    cases hu
    exact finds_ok.of_eq (congrArg Prod.fst (bind_of_ok (get_of_rows hrows)))
  | tableFamilies =>
    cases hu
    exact finds_ok.of_eq (congrArg Prod.fst (bind_of_ok (tableFamilies_of_present hrows hfs)))
  | tableExists | close => cases hu

/-- A use that needs no table looks up nothing. -/
theorem finds_of_needless {u : Use} (hu : u.needs = none) (m : Memory) :
    Finds (u.operation m).1 := by
  cases u with
  | call c =>
    cases c with
    | createTable table fs =>
      rcases createTable_cases m table fs with ⟨-, h⟩ | ⟨-, h⟩
      · refine Finds.of_eq ?_ (congrArg Prod.fst h)
        exact ⟨nofun, nofun⟩
      · exact finds_ok.of_eq (congrArg Prod.fst h)
    | deleteTable | put | delete => cases hu
  | get | tableFamilies => cases hu
  | tableExists | close => exact finds_ok

/-- Where the catalogues know the same tables, a use that needs a table is refused for it exactly if
the store does not know the table. -/
theorem outcome_of_paired (h : m.Paired) {u : Use} (hu : u.needs = some table) :
    (m.families.contains table = false ∧ (u.operation m).1 = .error (.noSuchTable table)) ∨
      (m.families.contains table = true ∧ Finds (u.operation m).1) := by
  cases hfs : m.families.get? table with
  | none =>
    have hknown : m.families.contains table = false := by rw [contains, hfs]; rfl
    have hrows : m.rows.get? table = none := by
      rw [← Option.isNone_iff_eq_none, ← Option.isSome_eq_false_iff]
      exact (h table).trans hknown
    exact .inl ⟨hknown, congrArg Prod.fst (refused_of_missing hu hrows)⟩
  | some fs =>
    obtain ⟨rows, hrows⟩ := h.exists_rows hfs
    exact .inr ⟨by rw [contains, hfs]; rfl, finds_of_present hu hrows hfs⟩

/-- Where the catalogues know the same tables, no look-up finds nothing. -/
theorem ne_missingKey_of_paired (h : m.Paired) (u : Use) :
    (u.operation m).1 ≠ .error .missingKey := by
  cases hu : u.needs with
  | none => exact (finds_of_needless hu m).1
  | some table =>
    obtain ⟨-, hrefused⟩ | ⟨-, hfinds⟩ := outcome_of_paired h hu
    · rw [hrefused]
      nofun
    · exact hfinds.1

end Use

/-- The store that uses in turn make of a new one, whether they succeed or not. -/
def reached (uses : List Use) : Memory := uses.foldl (fun m u => (u.operation m).2) empty

/-- The catalogues are in step after whatever run of uses, by induction on the run. -/
theorem inStep_reached (uses : List Use) : (reached uses).InStep :=
  List.foldlRecOn uses _ inStep_empty fun m hm u _ => u.keeps_inStep m hm

/-- All that a store gives back can be copied once more. -/
theorem isCopyable_of_get {uses : List Use} {cells : Cells}
    (h : (get table key (reached uses)).1 = .ok (some cells)) : cells.isCopyable = true := by
  obtain ⟨hpaired, hlieIn⟩ := inStep_reached uses
  cases hrows : (reached uses).rows.get? table with
  | none =>
    rw [get_of_none hrows] at h
    cases h
  | some rows =>
    rw [get_of_rows hrows] at h
    obtain ⟨fs, hfs⟩ : ∃ fs, (reached uses).families.get? table = some fs := by
      have hknown := hpaired table
      rw [contains, contains, hrows] at hknown
      exact Option.isSome_iff_exists.mp hknown.symm
    exact (hlieIn table fs rows hfs hrows key cells (Except.ok.inj h)).2

/-- Whatever is done to a new store, its two catalogues know the same tables, no look-up finds
nothing, and a missing table is told exactly if the store has none. -/
theorem catalogues_in_step (uses : List Use) :
    let m := reached uses
    (∀ table, table ∈ m.families.keys ↔ table ∈ m.rows.keys) ∧
    (∀ table rows key cells, m.rows.get? table = some rows → rows.get? key = some cells →
      ∃ fs, m.families.get? table = some fs ∧ ∀ f ∈ cells.families, f ∈ fs) ∧
    (∀ u : Use, (u.operation m).1 ≠ .error .missingKey) ∧
    ∀ (u : Use) table, u.needs = some table →
      ((tableExists table m).1 = .ok true ↔
        ∀ name, (u.operation m).1 ≠ .error (.noSuchTable name)) := by
  intro m
  obtain ⟨hpaired, hlieIn⟩ := inStep_reached uses
  have hkeys : ∀ table, table ∈ m.families.keys ↔ table ∈ m.rows.keys := fun table => by
    rw [← contains_iff_mem_keys, ← contains_iff_mem_keys, hpaired table]
  refine ⟨hkeys, fun table rows key cells hrows hcells => ?_, Use.ne_missingKey_of_paired hpaired,
    fun u table hu => ?_⟩
  · obtain ⟨fs, hfs⟩ := get?_of_mem_keys ((hkeys table).mpr (mem_keys_of_get? hrows))
    exact ⟨fs, hfs, (hlieIn table fs rows hfs hrows key cells hcells).1⟩
  · have hexists : (tableExists table m).1 = .ok (m.families.contains table) := rfl
    rw [hexists]
    obtain ⟨hunknown, hrefused⟩ | ⟨hknown, hfinds⟩ := Use.outcome_of_paired hpaired hu
    · rw [hunknown, hrefused]
      exact iff_of_false nofun fun h => h table rfl
    · rw [hknown]
      exact iff_of_true rfl hfinds.2

/-- A table is filled, dropped and made anew with another family, and some of the uses between are
refused. -/
theorem catalogues_in_step_after_recreation :
    let one : Cells := ofList [("a", ofList [("q", .int 1)])]
    let two : Cells := ofList [("b", ofList [("p", .int 2)])]
    let uses : List Use := [.get "t" "k", .call (.createTable "t" (NameSet.ofList ["a"])),
      .call (.put "t" "k" two), .call (.put "t" "k" one), .call (.deleteTable "t"),
      .tableFamilies "t", .call (.createTable "t" (NameSet.ofList ["b"])),
      .call (.createTable "t" (NameSet.ofList ["a"])), .call (.put "t" "k" one),
      .call (.put "t" "k" two), .call (.delete "u" "k"), .close]
    let m := reached uses
    (∃ rows, m.rows.get? "t" = some rows ∧ rows.get? "k" = some two) ∧
      (∃ fs, m.families.get? "t" = some fs ∧ ∀ f ∈ two.families, f ∈ fs) ∧
      (∀ u : Use, u.needs = some "t" → ∀ name, (u.operation m).1 ≠ .error (.noSuchTable name)) ∧
      ¬ ∀ name, ((Use.tableFamilies "u").operation m).1 ≠ .error (.noSuchTable name) := by
  intro one two uses m
  have hrow : ((m.rows.get? "t").bind fun rows => rows.get? "k") = some two := by cbv
  have ht : (tableExists "t" m).1 = .ok true := by cbv
  have hu : (tableExists "u" m).1 = .ok false := by cbv
  obtain ⟨-, hfamilies, -, hexists⟩ := catalogues_in_step uses
  obtain ⟨rows, hrows, hcells⟩ := Option.bind_eq_some_iff.mp hrow
  refine ⟨⟨rows, hrows, hcells⟩, hfamilies "t" rows "k" two hrows hcells,
    fun u hneeds => (hexists u "t" hneeds).mp ht, fun h => ?_⟩
  cases hu.symm.trans ((hexists (.tableFamilies "u") "u" rfl).mpr h)

end Memory

end WideColumn
