import WideColumn.Proofs.Store.MemoryClient

/-!
# What is left of a put that fails

A put that fails leaves the contents of a store as they were, but for one case: a
put into memory that came to a value that cannot be copied. Its cells lie on top
of the row as far as it has written them. So it is with the rows that a client
stores.
-/

namespace WideColumn

open Operation OrderedMap

namespace Store

/-- A put into memory has come to a value that cannot be copied. The cells that it has written by
then lie on top of the row, and nothing else has changed. -/
structure HalfPut (table key : String) (cells : Cells) (e : Error) (before after : Store) :
    Prop where
  /-- A value cannot be copied. -/
  uncopied : cells.isCopyable = false
  /-- That is the cause of the failure. -/
  cause : e = .wrongKind
  /-- The row holds what was written. -/
  laid : ∃ m rows, before = memory m ∧ m.rows.get? table = some rows ∧
    after = memory { m with rows := m.rows.insert table (rows.lay key cells.written) }

/-- A put that fails leaves no trace, or is a half put. -/
theorem put_eq_error {st st' : Store} {table key : String} {cells : Cells} {e : Error}
    (h : put table key cells st = (.error e, st')) :
    st'.forgetCalls = st.forgetCalls ∨ HalfPut table key cells e st st' := by
  cases st with
  | memory m =>
    rcases Memory.put_cases m table key cells with ⟨e', hr, -⟩ | ⟨rows, fs, hrows, -, -, hr⟩
    · simp only [put, onEither, hr] at h
      cases h
      exact .inl rfl
    · simp only [put, onEither, hr, Cells.outcome] at h
      split at h
      · cases h
      · rename_i hcopy
        cases h
        exact .inr ⟨Bool.eq_false_iff.mpr hcopy, rfl, m, rows, rfl, hrows, rfl⟩
  | gateway s =>
    rcases hr : Gateway.put table key cells s with ⟨r, s'⟩
    simp only [put, onEither, hr] at h
    cases h
    exact .inl (congrArg gateway (Gateway.atomic_put table key cells s e s' hr))

/-- A memory store is all contents. -/
theorem eq_memory_of_forgetCalls {st : Store} {m : Memory} (h : memory m = st.forgetCalls) :
    st = memory m := by
  cases st with
  | memory m' => exact h.symm
  | gateway s => cases h

end Store

namespace Client

/-- To be stored by a client a row gives cells and a key: that of its identifier, or the next one if
it has none. -/
structure Puts (c : Client) (r : Row) (table key : String) (cells : Cells) : Prop where
  /-- The table is the row's. -/
  table : r.table.name = table
  /-- The cells are the row's. -/
  cells : r.cells = .ok cells
  /-- A row without an identifier gets the next key. -/
  newKey : r.idValue = .null → key = keyOfCount (c.keysUsed + 1)
  /-- Any other row has its own key. -/
  ownKey : r.idValue ≠ .null → r.idValue.rowKey = .ok key

/-- Requiring a table hands out no key. -/
theorem leaves_keysUsed_requireTable (table : String) : Leaves keysUsed (requireTable table) := by
  have hexists : Leaves keysUsed (tableExists table) := fun _ => rfl
  exact hexists.bind fun _ => .ite (.pure _) (.fail _)

/-- The key and the cells of a row are settled before the store is asked to change. -/
theorem putRow_eq_error {c c' : Client} {r : Row} {e : Error} (h : putRow r c = (.error e, c')) :
    c'.contents = c.contents ∨ ∃ key cells, c.Puts r r.table.name key cells ∧
      Store.HalfPut r.table.name key cells e c.store c'.store := by
  rcases bind_eq_error h with hmissing | ⟨_, c₁, hrequire, h₁⟩
  · exact .inl ((leaves_requireTable _).of_eq hmissing)
  have hcontents : c₁.contents = c.contents := (leaves_requireTable _).of_eq hrequire
  have hkeysUsed : c₁.keysUsed = c.keysUsed := (leaves_keysUsed_requireTable _).of_eq hrequire
  rcases bind_eq_error h₁ with hrefused | ⟨key, c₂, hkey, h₂⟩
  · exact .inl (((leaves_keyOfRow r).of_eq hrefused).trans hcontents)
  obtain ⟨hstore, hnew, hown⟩ := keyOfRow_eq_ok hkey
  rcases bind_eq_error h₂ with hnote | ⟨_, c₃, hnote, h₃⟩
  · cases hnote
  cases hnote
  rcases bind_eq_error h₃ with hcells | ⟨cells, c₄, hcells, h₄⟩
  · exact .inl (((Leaves.lift r.cells).of_eq hcells).trans ((congrArg _ hstore).trans hcontents))
  obtain ⟨hmade, rfl⟩ := Prod.mk.inj ((lift_apply r.cells _).symm.trans hcells)
  rcases bind_eq_error h₄ with hput | ⟨_, _, -, hgive⟩
  · obtain ⟨st, hst, rfl⟩ := within_eq hput
    rcases Store.put_eq_error hst with hsame | hhalf
    · exact .inl (hsame.trans ((congrArg _ hstore).trans hcontents))
    · obtain ⟨m, rows, hm, -, -⟩ := hhalf.laid
      have hsame : c.store = c₂.store := by
        have hm₁ : c₁.store = .memory m := hstore.symm.trans hm
        rw [hstore, hm₁]
        exact Store.eq_memory_of_forgetCalls
          ((congrArg Store.forgetCalls hm₁).symm.trans hcontents)
      rw [hsame]
      exact .inr ⟨key, cells, ⟨rfl, hmade, hkeysUsed ▸ hnew, hown⟩, hhalf⟩
  · cases hgive

/-- To insert a row is to put it, and nothing can fail after that. -/
theorem insertRow_eq_error {c c' : Client} {r : Row} {e : Error}
    (h : insertRow r c = (.error e, c')) : putRow r c = (.error e, c') := by
  rcases bind_eq_error h with hput | ⟨key, c₁, -, h₁⟩
  · exact hput
  · obtain ⟨_, _, hok⟩ := ((total_note _ _).bind fun _ => Total.pure key) c₁
    cases hok.symm.trans h₁

end Client

end WideColumn
