import WideColumn.Proofs.Row.Finished
import WideColumn.Session

/-!
# Staging the values of a row

A draft is reached from an empty one by attempts to stage an identifier or the
value of a column; an attempt that is refused leaves the draft as it is. One
inversion lemma says all that a successful attempt can do. On a table whose
columns belong to its families, a draft never holds a column outside them.
-/

namespace WideColumn

/-- No column of the table lies outside its families. -/
def Table.Closed (t : Table) : Prop := ∀ c ∈ t.columns, ∀ f, c.family = some f → f ∈ t.families

namespace RowDraft

open OrderedMap

/-- An attempt to stage something. -/
inductive Staging where
  /-- The identifier. -/
  | identifier (v : Value)
  /-- The value of a column. -/
  | value (column : ColumnArgument) (v : Value)

/-- Stage what is asked for. -/
def take (d : RowDraft) : Staging → Except Error RowDraft
  | .identifier v => d.stageId v
  | .value (.named name) v => d.stageNamed name v
  | .value (.given c) v => d.stage c v

/-- The draft after an attempt, whether it succeeds or not. -/
def attempt (d : RowDraft) (s : Staging) : RowDraft :=
  match d.take s with
  | .ok d' => d'
  | .error _ => d

/-- The draft that attempts in turn lead to from nothing. -/
def reached (t : Table) (l : List Staging) : RowDraft := l.foldl attempt (new t)

/-- The identifier is staged at most once, and only for a table that has one. -/
theorem stageId_eq_ok {d d' : RowDraft} {v : Value} (h : d.stageId v = .ok d') :
    d.table.idColumn.isSome = true ∧ d.id = none ∧ d' = { d with id := some v } := by
  unfold stageId at h
  split at h
  · cases h
  · cases h
  · rename_i c hc hid
    cases h
    exact ⟨by rw [hc]; rfl, hid, rfl⟩

/-- Staging a column gives the identifier, or binds the table's own column of that name. -/
theorem stage_eq_ok {d d' : RowDraft} {c : Column} {v : Value} (h : d.stage c v = .ok d') :
    (c.isIdentifier = true ∧ d.stageId v = .ok d') ∨
      (c.isIdentifier = false ∧ d.table.hasColumn c = true ∧
        (c.qualifier = none → v.isMapping = true) ∧
        d' = { d with values := d.values.insert (resolve d.table c) v }) := by
  unfold stage at h
  split at h
  · rename_i hf
    exact .inl ⟨by rw [Column.isIdentifier, hf]; rfl, h⟩
  · rename_i f hf
    split at h
    · cases h
    · rename_i hcol
      split at h
      · cases h
      · rename_i hmap
        cases h
        refine .inr ⟨by rw [Column.isIdentifier, hf]; rfl, by simpa using hcol, fun hq => ?_, rfl⟩
        simpa [hq] using hmap

/-- Giving a value reads the column first, and then stages the value. -/
theorem take_value (d : RowDraft) (a : ColumnArgument) (v : Value) :
    d.take (.value a v) =
      match a.column with
      | .ok c => d.stage c v
      | .error e => .error e := by
  cases a <;> rfl

/-- The column that a staging of a value addresses. -/
theorem take_value_eq_ok {d d' : RowDraft} {a : ColumnArgument} {v : Value}
    (h : d.take (.value a v) = .ok d') : ∃ c, a.column = .ok c ∧ d.stage c v = .ok d' := by
  rw [take_value] at h
  split at h
  · rename_i c hc
    exact ⟨c, hc, h⟩
  · cases h

/-- All that a successful attempt can do: give the identifier, or bind a column of the table. -/
theorem take_eq_ok {d d' : RowDraft} {s : Staging} (h : d.take s = .ok d') :
    (∃ v, d.table.idColumn.isSome = true ∧ d.id = none ∧ d' = { d with id := some v }) ∨
      (∃ c v, c.isIdentifier = false ∧ d.table.hasColumn c = true ∧
        (c.qualifier = none → v.isMapping = true) ∧
        d' = { d with values := d.values.insert (resolve d.table c) v }) := by
  cases s with
  | identifier v => exact .inl ⟨v, stageId_eq_ok h⟩
  | value a v =>
    obtain ⟨c, -, hc⟩ := take_value_eq_ok h
    rcases stage_eq_ok hc with ⟨-, hid⟩ | hval
    · exact .inl ⟨v, stageId_eq_ok hid⟩
    · exact .inr ⟨c, v, hval⟩

/-- What holds of the empty draft and survives successful attempts holds of every draft reached. -/
theorem reached_induction {t : Table} {P : RowDraft → Prop} (hnew : P (new t))
    (htake : ∀ d s d', P d → d.take s = .ok d' → P d') (l : List Staging) : P (reached t l) := by
  refine List.foldlRecOn l attempt hnew fun d hd s _ => ?_
  unfold attempt
  split
  · rename_i d' h
    exact htake d s d' hd h
  · exact hd

/-- An attempt that succeeds does not change the table of a draft. -/
theorem table_of_take {d d' : RowDraft} {s : Staging} (h : d.take s = .ok d') :
    d'.table = d.table := by
  rcases take_eq_ok h with ⟨v, -, -, rfl⟩ | ⟨c, v, -, -, -, rfl⟩ <;> rfl

/-- A draft stays with the table it was started for. -/
@[simp] theorem table_reached (t : Table) (l : List Staging) : (reached t l).table = t :=
  reached_induction (P := fun d => d.table = t) rfl
    (fun _ _ _ hd h => (table_of_take h).trans hd) l

/-- A column that the table takes is kept under a column of one of its families. -/
theorem family_resolve_mem {t : Table} (ht : t.Closed) {c : Column} (hc : t.hasColumn c = true)
    {f : String} (hf : (resolve t c).family = some f) : f ∈ t.families := by
  unfold resolve at hf
  cases hcol : t.getColumn c.name with
  | none =>
    rw [hcol, Option.getD_none] at hf
    simp only [Table.hasColumn, hf, Bool.and_eq_true, decide_eq_true_eq] at hc
    exact hc.1
  | some own =>
    rw [hcol, Option.getD_some] at hf
    exact ht own (Table.mem_of_getColumn hcol) f hf

/-- The families of staged columns are families of the table. -/
theorem family_mem_of_reached {t : Table} (ht : t.Closed) (l : List Staging) :
    ∀ c ∈ (reached t l).values.keys, ∀ f, c.family = some f → f ∈ t.families := by
  suffices hinv : (reached t l).table = t ∧
      ∀ c ∈ (reached t l).values.keys, ∀ f, c.family = some f → f ∈ t.families from hinv.2
  refine reached_induction (P := fun d => d.table = t ∧
    ∀ c ∈ d.values.keys, ∀ f, c.family = some f → f ∈ t.families)
    ⟨rfl, fun c hc => nomatch hc⟩ (fun d s d' hd h => ?_) l
  refine ⟨(table_of_take h).trans hd.1, ?_⟩
  rcases take_eq_ok h with ⟨v, -, -, rfl⟩ | ⟨c, v, -, hcol, -, rfl⟩
  · exact hd.2
  · intro k hk f hf
    rw [hd.1] at hcol hk
    rcases mem_keys_insert.mp hk with hk | rfl
    · exact hd.2 k hk f hf
    · exact family_resolve_mem ht hcol hf

/-- Every column of a finished row that is not the identifier is staged. -/
theorem mem_columns_build {d : RowDraft} {c : Column} (hc : c ∈ d.build.columns) :
    c.family = none ∨ c ∈ d.values.keys := by
  obtain ⟨⟨k, v⟩, he, rfl⟩ := List.mem_map.mp hc
  rcases mem_entries_build he with ⟨hid, -⟩ | hkept
  · exact .inl (Column.isIdentifier_iff.mp (Table.isIdentifier_of_idColumn hid))
  · exact .inr (List.mem_map_of_mem hkept)

/-- The cells of a finished row lie in families of its table. -/
theorem family_mem_of_build {t : Table} (ht : t.Closed) (l : List Staging) {c : Column}
    (hc : c ∈ (reached t l).build.columns) {f : String} (hf : c.family = some f) :
    f ∈ t.families := by
  rcases mem_columns_build hc with hid | hval
  · rw [hid] at hf
    cases hf
  · exact family_mem_of_reached ht l c hval f hf

end RowDraft

end WideColumn
