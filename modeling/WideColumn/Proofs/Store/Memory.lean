import WideColumn.Proofs.Collections.NameSet
import WideColumn.Proofs.Collections.OrderedMap
import WideColumn.Proofs.Operation.Frame
import WideColumn.Proofs.Store.Copies

/-!
# What a memory store does

One lemma for each operation says all that it can do: either it refuses and the
store stays as it is, or it changes the store in the one way that is written
down, under the conditions that were checked. Only a put may fail after that,
for a value that cannot be copied. From these lemmas follows that the two
catalogues of a store always know the same tables.
-/

namespace WideColumn.Memory

open Operation OrderedMap

variable {m : Memory} {table key : String} {rows : Rows} {fs : NameSet}

/-- A table is made under a new name only, with its families and without rows. -/
theorem createTable_cases (m : Memory) (table : String) (fs : NameSet) :
    (m.families.contains table = true ∧
      createTable table fs m = (.error (.tableExists table), m)) ∨
    (m.families.contains table = false ∧
      createTable table fs m =
        (.ok (), { m with
          families := m.families.insert table fs, rows := m.rows.insert table ∅ })) := by
  have happly : createTable table fs m =
      (if m.families.contains table then Operation.fail (.tableExists table)
        else Operation.change fun m =>
          { m with families := m.families.insert table fs,
                   rows := m.rows.insert table ∅ } : Operation Memory Unit) m := rfl
  rw [happly]
  cases h : m.families.contains table with
  | true => exact .inl ⟨rfl, rfl⟩
  | false => exact .inr ⟨rfl, rfl⟩

/-- Rows are found for the tables of the second catalogue. -/
theorem tableRows_of_rows (h : m.rows.get? table = some rows) :
    tableRows table m = (.ok rows, m) := by
  simp only [tableRows, h]

theorem tableRows_of_none (h : m.rows.get? table = none) :
    tableRows table m = (.error (.noSuchTable table), m) := by
  simp only [tableRows, h]

theorem declaredFamilies_of_families (h : m.families.get? table = some fs) :
    declaredFamilies table m = (.ok fs, m) := by
  simp only [declaredFamilies, h]

theorem declaredFamilies_of_none (h : m.families.get? table = none) :
    declaredFamilies table m = (.error .missingKey, m) := by
  simp only [declaredFamilies, h]

theorem forgetFamilies_of_families (h : m.families.get? table = some fs) :
    forgetFamilies table m = (.ok (), { m with families := m.families.erase table }) :=
  bind_of_ok (declaredFamilies_of_families h)

theorem forgetFamilies_of_none (h : m.families.get? table = none) :
    forgetFamilies table m = (.error .missingKey, m) :=
  bind_of_error (declaredFamilies_of_none h)

theorem forgetRows_of_rows (h : m.rows.get? table = some rows) :
    forgetRows table m = (.ok (), { m with rows := m.rows.erase table }) :=
  bind_of_ok (tableRows_of_rows h)

/-- A table that both catalogues know is dropped from both. -/
theorem deleteTable_of_present (hrows : m.rows.get? table = some rows)
    (hfs : m.families.get? table = some fs) :
    deleteTable table m =
      (.ok (), { m with
        families := m.families.erase table, rows := m.rows.erase table }) := by
  unfold deleteTable
  rw [bind_of_ok (tableRows_of_rows hrows), bind_of_ok (forgetFamilies_of_families hfs)]
  exact forgetRows_of_rows hrows

/-- A table is dropped from both catalogues or from none: the second is changed last, and the first
step has made sure that it has the table. -/
theorem deleteTable_cases (m : Memory) (table : String) :
    (∃ e, deleteTable table m = (.error e, m)) ∨
    (∃ rows fs, m.rows.get? table = some rows ∧ m.families.get? table = some fs ∧
      deleteTable table m =
        (.ok (), { m with
          families := m.families.erase table, rows := m.rows.erase table })) := by
  cases hrows : m.rows.get? table with
  | none => exact .inl ⟨_, bind_of_error (tableRows_of_none hrows)⟩
  | some rows =>
    cases hfs : m.families.get? table with
    | none =>
      exact .inl ⟨_, (bind_of_ok (tableRows_of_rows hrows)).trans
        (bind_of_error (forgetFamilies_of_none hfs))⟩
    | some fs => exact .inr ⟨rows, fs, rfl, rfl, deleteTable_of_present hrows hfs⟩

/-- Cells are laid on top of a row of a table that has all of their families, as far as they can be
copied. -/
theorem put_of_known (hrows : m.rows.get? table = some rows) (hfs : m.families.get? table = some fs)
    {cells : Cells} (h : ∀ f ∈ cells.families, f ∈ fs) :
    put table key cells m =
      (cells.outcome, { m with rows := m.rows.insert table (rows.lay key cells.written) }) := by
  unfold put
  rw [bind_of_ok (tableRows_of_rows hrows), bind_of_ok (declaredFamilies_of_families hfs)]
  simp only [NameSet.isEmpty_diff_iff.mpr h, if_true]
  exact onRow_copyFamilies table key rows cells m

/-- Cells of a family that the table lacks are refused. -/
theorem put_of_unknown (hrows : m.rows.get? table = some rows)
    (hfs : m.families.get? table = some fs) {cells : Cells} (h : ¬ ∀ f ∈ cells.families, f ∈ fs) :
    put table key cells m =
      (.error (.unknownCellFamilies ((NameSet.ofList cells.families).diff fs).names table), m) := by
  unfold put
  rw [bind_of_ok (tableRows_of_rows hrows), bind_of_ok (declaredFamilies_of_families hfs)]
  simp only [mt NameSet.isEmpty_diff_iff.mp h]
  rfl

/-- Cells are refused, or else all of their families are known. -/
theorem put_cases (m : Memory) (table key : String) (cells : Cells) :
    (∃ e, put table key cells m = (.error e, m) ∧ e ≠ .wrongKind) ∨
    (∃ rows fs, m.rows.get? table = some rows ∧ m.families.get? table = some fs ∧
      (∀ f ∈ cells.families, f ∈ fs) ∧
      put table key cells m =
        (cells.outcome, { m with rows := m.rows.insert table (rows.lay key cells.written) })) := by
  cases hrows : m.rows.get? table with
  | none => exact .inl ⟨_, bind_of_error (tableRows_of_none hrows), nofun⟩
  | some rows =>
    cases hfs : m.families.get? table with
    | none =>
      exact .inl ⟨_, (bind_of_ok (tableRows_of_rows hrows)).trans
        (bind_of_error (declaredFamilies_of_none hfs)), nofun⟩
    | some fs =>
      by_cases h : ∀ f ∈ cells.families, f ∈ fs
      · exact .inr ⟨rows, fs, rfl, rfl, h, put_of_known hrows hfs h⟩
      · exact .inl ⟨_, put_of_unknown hrows hfs h, nofun⟩

/-- From a table that is there a row is read, or none. -/
theorem get_of_rows (hrows : m.rows.get? table = some rows) :
    get table key m = (.ok (rows.get? key), m) :=
  bind_of_ok (tableRows_of_rows hrows)

/-- From a table that is not there no row is read. -/
theorem get_of_none (h : m.rows.get? table = none) :
    get table key m = (.error (.noSuchTable table), m) :=
  bind_of_error (tableRows_of_none h)

/-- From a table that is there a row is dropped. -/
theorem delete_of_rows (hrows : m.rows.get? table = some rows) :
    delete table key m =
      (.ok (), { m with rows := m.rows.insert table (rows.erase key) }) :=
  bind_of_ok (tableRows_of_rows hrows)

/-- A row is dropped from a table that has rows; else the store stays as it is. -/
theorem delete_cases (m : Memory) (table key : String) :
    (∃ e, delete table key m = (.error e, m)) ∨
    (∃ rows, m.rows.get? table = some rows ∧
      delete table key m =
        (.ok (), { m with rows := m.rows.insert table (rows.erase key) })) := by
  cases hrows : m.rows.get? table with
  | none => exact .inl ⟨_, bind_of_error (tableRows_of_none hrows)⟩
  | some rows => exact .inr ⟨rows, rfl, delete_of_rows hrows⟩

/-- The families of a table in both catalogues are those of the first. -/
theorem tableFamilies_of_present (hrows : m.rows.get? table = some rows)
    (hfs : m.families.get? table = some fs) : tableFamilies table m = (.ok fs, m) :=
  (bind_of_ok (tableRows_of_rows hrows)).trans (declaredFamilies_of_families hfs)

/-- A table is in the one catalogue exactly when it is in the other. -/
def Paired (m : Memory) : Prop := ∀ table, m.rows.contains table = m.families.contains table

theorem paired_empty : Paired empty := fun _ => rfl

/-- A table that has families has rows. -/
theorem Paired.exists_rows (h : m.Paired) (hfs : m.families.get? table = some fs) :
    ∃ rows, m.rows.get? table = some rows := by
  have := h table
  rw [contains, contains, hfs] at this
  exact Option.isSome_iff_exists.mp this

/-- Rebinding the rows of a known table pairs the catalogues as before. -/
theorem Paired.insert_rows (h : m.Paired) (hrows : m.rows.get? table = some rows) (rows' : Rows) :
    Paired { m with rows := m.rows.insert table rows' } := by
  intro t
  rw [← h t]
  simp only [contains, get?_insert]
  split
  · rename_i ht
    rw [← ht, hrows]
    rfl
  · rfl

/-- Making a table puts it into both catalogues. -/
theorem keeps_paired_createTable (table : String) (fs : NameSet) :
    Keeps Paired (createTable table fs) := by
  intro m hm
  rcases createTable_cases m table fs with ⟨-, h⟩ | ⟨-, h⟩ <;> rw [h]
  · exact hm
  · intro t
    have ht := hm t
    simp only [contains, get?_insert] at ht ⊢
    split
    · rfl
    · exact ht

/-- Dropping a table takes it out of both catalogues. -/
theorem keeps_paired_deleteTable (table : String) : Keeps Paired (deleteTable table) := by
  intro m hm
  rcases deleteTable_cases m table with ⟨e, h⟩ | ⟨rows, fs, -, -, h⟩ <;> rw [h]
  · exact hm
  · intro t
    have ht := hm t
    simp only [contains, get?_erase] at ht ⊢
    split
    · rfl
    · exact ht

/-- Putting cells makes no table. -/
theorem keeps_paired_put (table key : String) (cells : Cells) :
    Keeps Paired (put table key cells) := by
  intro m hm
  rcases put_cases m table key cells with ⟨e, h, -⟩ | ⟨rows, fs, hrows, -, -, h⟩ <;> rw [h]
  · exact hm
  · exact hm.insert_rows hrows _

/-- Deleting a row drops no table. -/
theorem keeps_paired_delete (table key : String) : Keeps Paired (delete table key) := by
  intro m hm
  rcases delete_cases m table key with ⟨e, h⟩ | ⟨rows, hrows, h⟩ <;> rw [h]
  · exact hm
  · exact hm.insert_rows hrows _

end WideColumn.Memory
