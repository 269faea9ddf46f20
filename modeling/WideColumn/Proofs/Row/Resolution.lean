import WideColumn.Proofs.Row.Contributions
import WideColumn.Proofs.Row.Staging

/-!
# The columns under which values are kept

A value is checked against the column it is given for, and kept under the
table's own column of that name. The two agree in family and qualifier when no
family is called like a cell of another or like the identifier. Otherwise they
may be different columns, and what was checked of the one need not hold of the
other.
-/

namespace WideColumn

open OrderedMap

namespace Table

/-- A table takes values for its own columns. -/
theorem hasColumn_of_mem {t : Table} (ht : t.Closed) {c : Column} (hc : c ∈ t.columns) :
    t.hasColumn c = true := by
  unfold hasColumn
  split
  · rename_i hf
    rw [idColumn, List.find?_isSome]
    exact ⟨c, hc, Column.isIdentifier_iff.mpr hf⟩
  · rename_i f hf
    rw [Bool.and_eq_true, decide_eq_true_eq, List.any_eq_true]
    refine ⟨ht c hc f hf, c, hc, ?_⟩
    simp [covers]

/-- A column that is taken is an identifier or belongs to a family of the table. -/
theorem family_mem_of_hasColumn {t : Table} {c : Column} (h : t.hasColumn c = true) {f : String}
    (hf : c.family = some f) : f ∈ t.families := by
  simp only [hasColumn, hf, Bool.and_eq_true, decide_eq_true_eq] at h
  exact h.1

end Table

namespace RowDraft

/-- A column is resolved to itself or to a column of the table. -/
theorem resolve_eq_or_mem (t : Table) (c : Column) :
    resolve t c = c ∨ resolve t c ∈ t.columns := by
  unfold resolve
  cases h : t.getColumn c.name with
  | none => exact .inl rfl
  | some d => exact .inr (Table.mem_of_getColumn h)

@[simp] theorem name_resolve (t : Table) (c : Column) : (resolve t c).name = c.name := by
  unfold resolve
  cases h : t.getColumn c.name with
  | none => rfl
  | some d => exact Table.name_of_getColumn h

/-- The column under which a value is kept is again one that the table takes. -/
theorem hasColumn_resolve {t : Table} (ht : t.Closed) {c : Column} (hc : t.hasColumn c = true) :
    t.hasColumn (resolve t c) = true := by
  rcases resolve_eq_or_mem t c with h | h
  · rw [h]
    exact hc
  · exact Table.hasColumn_of_mem ht h

/-- A column that is no identifier can only stand for one by its name, and then for the first one
of the table. -/
theorem idColumn_of_resolve {t : Table} {c : Column} (hc : c.isIdentifier = false)
    (h : (resolve t c).isIdentifier = true) : t.idColumn = some (resolve t c) := by
  unfold resolve at h ⊢
  cases hget : t.getColumn c.name with
  | none =>
    rw [hget, Option.getD_none, hc] at h
    cases h
  | some d =>
    rw [hget, Option.getD_some] at h
    rw [Option.getD_some]
    obtain ⟨hname, before, after, hsplit, hbefore⟩ := List.find?_eq_some_iff_append.mp hget
    refine List.find?_eq_some_iff_append.mpr ⟨h, before, after, hsplit, fun e he => ?_⟩
    have hne := hbefore e he
    simp only [Bool.not_eq_true', decide_eq_false_iff_not] at hne
    rw [Bool.not_eq_true', ← Bool.not_eq_true]
    intro hid
    rw [decide_eq_true_eq, Column.name_of_isIdentifier h] at hname
    exact hne ((Column.name_of_isIdentifier hid).trans hname)

/-- The family and the qualifier of a column are those of the column under which its values are
kept, if the families of the table leave no doubt about names. -/
theorem place_resolve {t : Table} {families : List String} (hapart : Column.Apart families families)
    (ht : ∀ c ∈ t.columns, ∀ f, c.family = some f → f ∈ families) {c : Column} {f : String}
    (hc : c.family = some f) (hf : f ∈ families) (hname : c.name ≠ Column.identifierName) :
    (resolve t c).family = c.family ∧ (resolve t c).qualifier = c.qualifier := by
  rcases resolve_eq_or_mem t c with h | h
  · rw [h]
    exact ⟨rfl, rfl⟩
  · cases hg : (resolve t c).family with
    | none =>
      have hid := Column.name_of_isIdentifier (Column.isIdentifier_iff.mpr hg)
      exact absurd ((name_resolve t c).symm.trans hid) hname
    | some g =>
      rw [← hg]
      exact hapart.eq_of_name hg hc (ht _ h g hg) hf (name_resolve t c)

/-- A column that is taken and is no identifier is not called like one, unless a family is. -/
theorem name_ne_of_taken {t : Table} (hid : Column.identifierName ∉ t.families) {c : Column}
    (hcol : t.hasColumn c = true) {f : String} (hf : c.family = some f) :
    c.name ≠ Column.identifierName := by
  intro hname
  obtain ⟨-, rfl⟩ := Column.eq_identifierName_of_name hf hname
  exact hid (Table.family_mem_of_hasColumn hcol hf)

/-- A value for a column that is taken is kept under its family and its qualifier, if the families of
the table leave no doubt about names. -/
theorem place_resolve_of_taken {t : Table} (hapart : Column.Apart t.families.names t.families.names)
    (ht : t.Closed) (hid : Column.identifierName ∉ t.families) {c : Column}
    (hcol : t.hasColumn c = true) {f : String} (hf : c.family = some f) :
    (resolve t c).family = c.family ∧ (resolve t c).qualifier = c.qualifier :=
  place_resolve hapart ht hf (Table.family_mem_of_hasColumn hcol hf) (name_ne_of_taken hid hcol hf)

end RowDraft

end WideColumn
