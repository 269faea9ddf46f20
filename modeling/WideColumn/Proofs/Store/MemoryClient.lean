import WideColumn.Proofs.Row.Cells
import WideColumn.Proofs.Store.Holdings
import WideColumn.Store.Update

/-!
# A client of a memory store

What a client answers and leaves behind when its store is in memory. A row whose
cells lie in the families of its table is always taken: it goes on top of what
is stored under its key, and everything else reads as before.
-/

namespace WideColumn.Client

open Operation OrderedMap

variable {α : Type} {c c' : Client} {m : Memory} {table key : String} {rows : Rows} {fs : NameSet}

/-- An operation of the store that is carried out in memory. -/
theorem onStore_of_memory {a : Operation Memory α} {b : Operation Server α} {m' : Memory}
    {r : Except Error α} (hc : c.store = .memory m) (h : a m = (r, m')) :
    onStore (Store.onEither a b) c = (r, { c with store := .memory m' }) := by
  simp only [onStore, within, hc, Store.onEither, h]

/-- An operation that leaves the memory leaves the client. -/
theorem onStore_of_memory_same {a : Operation Memory α} {b : Operation Server α}
    {r : Except Error α} (hc : c.store = .memory m) (h : a m = (r, m)) :
    onStore (Store.onEither a b) c = (r, c) := by
  rw [onStore_of_memory hc h, ← hc]

/-- A table exists in memory exactly if its families are known. -/
theorem tableExists_of_memory (hc : c.store = .memory m) :
    tableExists table c = (.ok (m.families.contains table), c) :=
  onStore_of_memory_same hc rfl

/-- A table that is known passes. -/
theorem requireTable_of_known (hc : c.store = .memory m) (hfs : m.families.get? table = some fs) :
    requireTable table c = (.ok (), c) := by
  have hknown : m.families.contains table = true := by rw [contains, hfs]; rfl
  unfold requireTable
  rw [bind_of_ok (tableExists_of_memory hc), hknown]
  rfl

/-- A table that is not known is refused by its name. -/
theorem requireTable_of_unknown (hc : c.store = .memory m)
    (h : m.families.get? table = none) :
    requireTable table c = (.error (.noSuchTable table), c) := by
  have hunknown : m.families.contains table = false := by rw [contains, h]; rfl
  unfold requireTable
  rw [bind_of_ok (tableExists_of_memory hc), hunknown]
  rfl

/-- A row of a known table is read as it is stored. -/
theorem getRow_of_rows (hc : c.store = .memory m) (hfs : m.families.get? table = some fs)
    (hrows : m.rows.get? table = some rows) :
    getRow table key c = (.ok (rows.get? key), c) := by
  unfold getRow
  rw [bind_of_ok (requireTable_of_known hc hfs)]
  exact onStore_of_memory_same hc (Memory.get_of_rows hrows)

/-- All that reading a row can answer when the catalogues know the same tables. -/
theorem getRow_of_paired (hc : c.store = .memory m) (hm : m.Paired) :
    (getRow table key c).1 =
      match m.rows.get? table with
      | some rows => .ok (rows.get? key)
      | none => .error (.noSuchTable table) := by
  cases hfs : m.families.get? table with
  | some fs =>
    obtain ⟨rows, hrows⟩ := hm.exists_rows hfs
    rw [getRow_of_rows hc hfs hrows, hrows]
  | none =>
    have hnone : m.rows.get? table = none := by
      have := hm table
      rw [contains, contains, hfs] at this
      exact Option.not_isSome_iff_eq_none.mp (by simp [this])
    unfold getRow
    rw [bind_of_error (requireTable_of_unknown hc hfs), hnone]

/-- A row without an identifier gets the next key. -/
theorem keyOfRow_of_null {r : Row} (h : r.idValue = .null) :
    keyOfRow r c = (.ok (keyOfCount (c.keysUsed + 1)), { c with keysUsed := c.keysUsed + 1 }) := by
  unfold keyOfRow
  rw [h]
  rfl

/-- A row with an identifier has the key of the identifier. -/
theorem keyOfRow_of_identifier {r : Row} (h : r.idValue ≠ .null) :
    keyOfRow r = lift r.idValue.rowKey := by
  unfold keyOfRow
  split
  · rename_i hnull
    exact absurd hnull h
  · rfl

/-- A row brings its key, or is handed the next one. -/
theorem keyOfRow_of_accepted {r : Row} (h : r.idValue = .null ∨ ∃ k, r.idValue.rowKey = .ok k) :
    ∃ key n, keyOfRow r c = (.ok key, { c with keysUsed := n }) ∧
      (r.idValue = .null → key = keyOfCount (c.keysUsed + 1)) ∧
      (r.idValue ≠ .null → r.idValue.rowKey = .ok key) := by
  by_cases hnull : r.idValue = .null
  · exact ⟨_, _, keyOfRow_of_null hnull, fun _ => rfl, fun hne => absurd hnull hne⟩
  · obtain ⟨key, hkey⟩ := h.resolve_left hnull
    refine ⟨key, c.keysUsed, ?_, fun h' => absurd h' hnull, fun _ => hkey⟩
    rw [keyOfRow_of_identifier hnull, lift_apply, hkey]

/-- A row whose cells lie in the families of its table is stored, as far as its cells can be
copied. -/
theorem putRow_of_known {r : Row} {cells : Cells} {n : Nat} (hc : c.store = .memory m)
    (hfs : m.families.get? r.table.name = some fs) (hrows : m.rows.get? r.table.name = some rows)
    (hkey : keyOfRow r c = (.ok key, { c with keysUsed := n })) (hcells : r.cells = .ok cells)
    (hknown : ∀ f ∈ cells.families, f ∈ fs) :
    ∃ c', putRow r c = (if cells.isCopyable then .ok key else .error .wrongKind, c') ∧
      c'.store =
        .memory { m with rows := m.rows.insert r.table.name (rows.lay key cells.written) } := by
  have hput : ∀ c₁ : Client, c₁.store = .memory m →
      onStore (Store.put r.table.name key cells) c₁ = (cells.outcome, { c₁ with
        store := .memory { m with
          rows := m.rows.insert r.table.name (rows.lay key cells.written) } }) :=
    fun _ h => onStore_of_memory h (Memory.put_of_known hrows hfs hknown)
  have hnoted := hput { c with
    keysUsed := n
    log := c.log ++ [⟨.debug, "Putting row " ++ key ++ " into " ++ r.table.name ++ "."⟩] } hc
  unfold putRow
  rw [bind_of_ok (requireTable_of_known hc hfs), bind_of_ok hkey, hcells]
  unfold Cells.outcome at hnoted
  split at hnoted
  · rename_i hcopy
    rw [if_pos hcopy]
    exact ⟨_, (bind_of_ok hnoted :), rfl⟩
  · rename_i hcopy
    rw [if_neg hcopy]
    exact ⟨_, (bind_of_error hnoted :), rfl⟩

/-- So is a row that is inserted. -/
theorem insertRow_of_known {r : Row} {cells : Cells} {n : Nat} (hc : c.store = .memory m)
    (hfs : m.families.get? r.table.name = some fs) (hrows : m.rows.get? r.table.name = some rows)
    (hkey : keyOfRow r c = (.ok key, { c with keysUsed := n })) (hcells : r.cells = .ok cells)
    (hknown : ∀ f ∈ cells.families, f ∈ fs) :
    ∃ c', insertRow r c = (if cells.isCopyable then .ok key else .error .wrongKind, c') ∧
      c'.store =
        .memory { m with rows := m.rows.insert r.table.name (rows.lay key cells.written) } := by
  obtain ⟨c₁, hput, hstore⟩ := putRow_of_known hc hfs hrows hkey hcells hknown
  unfold insertRow
  by_cases hcopy : cells.isCopyable = true
  · rw [if_pos hcopy] at hput ⊢
    rw [bind_of_ok hput]
    exact ⟨_, rfl, hstore⟩
  · rw [if_neg hcopy] at hput ⊢
    exact ⟨c₁, bind_of_error hput, hstore⟩

/-- A key that a row is given is its identifier's, or the next one when it has none, and the store
is not touched for it. -/
theorem keyOfRow_eq_ok {r : Row} (h : keyOfRow r c = (.ok key, c')) :
    c'.store = c.store ∧ (r.idValue = .null → key = keyOfCount (c.keysUsed + 1)) ∧
      (r.idValue ≠ .null → r.idValue.rowKey = .ok key) := by
  by_cases hnull : r.idValue = .null
  · rw [keyOfRow_of_null hnull] at h
    obtain ⟨hkey, rfl⟩ := Prod.mk.inj h
    exact ⟨rfl, fun _ => (Except.ok.inj hkey).symm, fun hne => absurd hnull hne⟩
  · rw [keyOfRow_of_identifier hnull, lift_apply] at h
    obtain ⟨hkey, rfl⟩ := Prod.mk.inj h
    exact ⟨rfl, fun h => absurd h hnull, fun _ => hkey⟩

theorem store_of_note {level : Level} {message : String}
    (h : note level message c = (.ok (), c')) : c'.store = c.store := by
  cases h
  rfl

/-- All that storing a row can do when it succeeds: the row gets a key, and its cells, which lie in
the families of a table of the store, come on top of the row under that key. -/
theorem putRow_eq_ok {r : Row} (hc : c.store = .memory m) (h : putRow r c = (.ok key, c')) :
    ∃ fs rows cells, m.families.get? r.table.name = some fs ∧
      m.rows.get? r.table.name = some rows ∧ r.cells = .ok cells ∧
      (r.idValue = .null → key = keyOfCount (c.keysUsed + 1)) ∧
      (r.idValue ≠ .null → r.idValue.rowKey = .ok key) ∧
      c'.store = .memory { m with rows := m.rows.insert r.table.name (rows.lay key cells) } := by
  obtain ⟨_, c₁, hrequire, h₁⟩ := bind_eq_ok h
  obtain ⟨_, c₂, hkey, h₂⟩ := bind_eq_ok h₁
  obtain ⟨_, c₃, hdebug, h₃⟩ := bind_eq_ok h₂
  obtain ⟨cells, c₄, hcells, h₄⟩ := bind_eq_ok h₃
  obtain ⟨_, c₅, hput, hgive⟩ := bind_eq_ok h₄
  cases hgive
  obtain ⟨hmade, rfl⟩ := Prod.mk.inj ((lift_apply r.cells c₃).symm.trans hcells)
  cases hfs : m.families.get? r.table.name with
  | none =>
    rw [requireTable_of_unknown hc hfs] at hrequire
    cases hrequire
  | some fs =>
    rw [requireTable_of_known hc hfs] at hrequire
    cases hrequire
    obtain ⟨hsame, hnew, hown⟩ := keyOfRow_eq_ok hkey
    have hc₃ : c₃.store = .memory m := (store_of_note hdebug).trans (hsame.trans hc)
    rcases Memory.put_cases m r.table.name key cells with
      ⟨e, hrefused, -⟩ | ⟨rows, gs, hrows, -, -, hlaid⟩
    · rw [Store.put, onStore_of_memory hc₃ hrefused] at hput
      cases hput
    · rw [Store.put, onStore_of_memory hc₃ hlaid, Cells.outcome] at hput
      split at hput
      · rename_i hcopy
        cases hput
        rw [Cells.written_of_isCopyable hcopy]
        exact ⟨fs, rows, cells, rfl, hrows, hmade, hnew, hown, rfl⟩
      · cases hput

/-- A row that is inserted is stored. -/
theorem insertRow_eq_ok {r : Row} (h : insertRow r c = (.ok key, c')) :
    ∃ c₁, putRow r c = (.ok key, c₁) ∧ c'.store = c₁.store := by
  obtain ⟨_, c₁, hput, h₁⟩ := bind_eq_ok h
  obtain ⟨_, c₂, hnote, hgive⟩ := bind_eq_ok h₁
  cases hgive
  exact ⟨c₁, hput, store_of_note hnote⟩

/-- A row of a known table with an identifier column is deleted, whether it is there or not. -/
theorem deleteById_of_known {t : Table} {id : Value} (hc : c.store = .memory m)
    (hfs : m.families.get? t.name = some fs) (hrows : m.rows.get? t.name = some rows)
    (hid : t.idColumn.isSome = true) (hkey : id.rowKey = .ok key) :
    ∃ c', deleteById t id c = (.ok (), c') ∧
      c'.store = .memory { m with rows := m.rows.insert t.name (rows.erase key) } := by
  have hdelete : deleteRow t.name key c =
      (.ok (), { c with
        store := .memory { m with rows := m.rows.insert t.name (rows.erase key) } }) := by
    unfold deleteRow
    rw [bind_of_ok (requireTable_of_known hc hfs)]
    exact onStore_of_memory hc (Memory.delete_of_rows hrows)
  have hlift : (lift id.rowKey : Operation Client String) c = (.ok key, c) := by
    rw [lift_apply, hkey]
  have hnone : ¬ t.idColumn.isNone = true := by
    rw [Option.isNone_iff_eq_none]
    intro hnone
    rw [hnone] at hid
    cases hid
  have happly : deleteById t id c =
      (lift id.rowKey >>= fun key => deleteRow t.name key >>= fun _ =>
        note .debug ("Deleted row " ++ id.plainText ++ " from " ++ t.name ++ ".")) c := by
    unfold deleteById
    rw [if_neg hnone]
  rw [happly, bind_of_ok hlift, bind_of_ok hdelete]
  exact ⟨_, rfl, rfl⟩

/-- From one client to the other, cells came on top of the row under one key of one table, and
nothing else that can be read has changed. -/
structure WritesRow (c c' : Client) (table key : String) (cells : Cells) : Prop where
  /-- The row is the former one, if there was any, with the cells on top. -/
  row : ∃ before after, (getRow table key c).1 = .ok before ∧
    (getRow table key c').1 = .ok (some after) ∧ Cells.IsOverlay (before.getD ∅) cells after
  /-- Every other row, of this and of any other table, reads as before. -/
  otherRows : ∀ t k, (t, k) ≠ (table, key) → (getRow t k c').1 = (getRow t k c).1
  /-- There are the same tables with the same families. -/
  tables : c'.store.holdings = c.store.holdings

/-- Laying cells on top of a row of a memory store writes that row and nothing else. -/
theorem writesRow_of_lay {cells : Cells} (hm : m.Paired) (hc : c.store = .memory m)
    (hrows : m.rows.get? table = some rows)
    (hc' : c'.store = .memory { m with rows := m.rows.insert table (rows.lay key cells) }) :
    WritesRow c c' table key cells where
  row := by
    refine ⟨rows.get? key, ((rows.get? key).getD ∅).overlay cells, ?_, ?_,
      Cells.isOverlay_overlay _ _⟩
    · rw [getRow_of_paired hc hm, hrows]
    · rw [getRow_of_paired hc' (hm.insert_rows hrows _), get?_insert_self]
      exact congrArg Except.ok (get?_insert_self ..)
  otherRows t k hne := by
    rw [getRow_of_paired hc hm, getRow_of_paired hc' (hm.insert_rows hrows _), get?_insert]
    by_cases ht : table = t
    · subst ht
      have hk : key ≠ k := fun hk => hne (by rw [hk])
      rw [if_pos rfl, hrows]
      exact congrArg Except.ok ((get?_insert ..).trans (if_neg hk))
    · rw [if_neg ht]
  tables := by
    rw [hc, hc']
    rfl

/-- From one client to the other, the row under one key of one table is gone, and nothing else that
can be read has changed. -/
structure DropsRow (c c' : Client) (table key : String) : Prop where
  /-- The row is not there. -/
  row : (getRow table key c').1 = .ok none
  /-- Every other row, of this and of any other table, reads as before. -/
  otherRows : ∀ t k, (t, k) ≠ (table, key) → (getRow t k c').1 = (getRow t k c).1
  /-- There are the same tables with the same families. -/
  tables : c'.store.holdings = c.store.holdings

/-- Erasing a row of a memory store drops that row and nothing else. -/
theorem dropsRow_of_erase (hm : m.Paired) (hc : c.store = .memory m)
    (hrows : m.rows.get? table = some rows)
    (hc' : c'.store = .memory { m with rows := m.rows.insert table (rows.erase key) }) :
    DropsRow c c' table key where
  row := by
    rw [getRow_of_paired hc' (hm.insert_rows hrows _), get?_insert_self]
    exact congrArg Except.ok ((get?_erase ..).trans (if_pos rfl))
  otherRows t k hne := by
    rw [getRow_of_paired hc hm, getRow_of_paired hc' (hm.insert_rows hrows _), get?_insert]
    by_cases ht : table = t
    · subst ht
      have hk : key ≠ k := fun hk => hne (by rw [hk])
      rw [if_pos rfl, hrows]
      exact congrArg Except.ok ((get?_erase ..).trans (if_neg hk))
    · rw [if_neg ht]
  tables := by
    rw [hc, hc']
    rfl

end WideColumn.Client
