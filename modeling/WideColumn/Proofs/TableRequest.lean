import WideColumn.Proofs.Collections.NameSet
import WideColumn.Proofs.Row.Staging

/-!
# Tables that requests make

A request that passes its own check makes a table under the requested name whose
families are the requested ones and whose columns all belong to them. The declared
columns stand together in their order. An identifier comes before them if none is
declared, and after them a mapping for every family that would be left without a
column; so there is one identifier, and every family has a column.
-/

namespace WideColumn

namespace TableRequest

/-- Families that pass the check were set, are not empty, and hold every declared column. -/
theorem validFamilies_eq_ok {r : TableRequest} {fs : NameSet} (h : r.validFamilies = .ok fs) :
    r.families = some fs ∧ fs.isEmpty = false ∧
      ∀ c ∈ r.columns, ∀ f, c.family = some f → f ∈ fs := by
  unfold validFamilies at h
  split at h
  · cases h
  · rename_i fs' hfs
    split at h
    · cases h
    · rename_i hne
      split at h
      · cases h
      · rename_i hall
        cases h
        refine ⟨hfs, by simpa using hne, fun c hc f hf => ?_⟩
        have hb := List.find?_eq_none.mp hall c hc
        simpa [belongs, hf] using hb

/-- If the declared columns lie in the families, so do the finished ones. -/
theorem mem_families_of_finished {columns : List Column} {fs : NameSet}
    (h : ∀ c ∈ columns, ∀ f, c.family = some f → f ∈ fs) :
    ∀ c ∈ finishedColumns columns fs, ∀ f, c.family = some f → f ∈ fs := by
  intro c hc f hf
  simp only [finishedColumns, List.mem_append, List.mem_map] at hc
  rcases hc with (hid | hdecl) | ⟨g, hg, rfl⟩
  · split at hid
    · cases hid
    · rw [List.mem_singleton] at hid
      subst hid
      cases hf
  · exact h c hdecl f hf
  · cases hf
    exact (NameSet.mem_diff.mp hg).1

/-- The columns of the finished table lie in its families. -/
theorem closed_table {r : TableRequest} {fs : NameSet} (h : r.validFamilies = .ok fs)
    (schemaName tableName : String) : (r.table schemaName tableName fs).Closed :=
  mem_families_of_finished (validFamilies_eq_ok h).2.2

end TableRequest

/-- The table has the shape that its families and the columns declared for it give it. -/
structure Table.ShapedBy (t : Table) (declared : List Column) : Prop where
  /-- No family is without a column, and no column outside the families. -/
  families : Column.familiesOf t.columns = t.families
  /-- There is exactly one identifier, and it is the one that the table gives. -/
  identifier : ∃ c, t.columns.filter Column.isIdentifier = [c] ∧ t.idColumn = some c
  /-- The declared columns stand together, after an identifier only if none is declared, and before
  a mapping for every family without a declared column, in increasing order. -/
  columns : ∃ names : List String,
    t.columns = (if declared.any Column.isIdentifier then [] else [Column.identifier .binary]) ++
        declared ++ names.map (fun f => Column.wholeFamily f .map) ∧
      names.Pairwise (· < ·) ∧
      ∀ f, f ∈ names ↔ f ∈ t.families ∧ ∀ c ∈ declared, c.family ≠ some f
  /-- The table takes values for all its columns. -/
  hasColumn : ∀ c ∈ t.columns, t.hasColumn c = true

namespace TableRequest

variable {columns : List Column} {families : NameSet}

/-- Among columns of different names there is one identifier at most. -/
theorem filter_isIdentifier_of_any (hnames : (columns.map Column.name).Nodup)
    (h : columns.any Column.isIdentifier = true) :
    ∃ c, columns.filter Column.isIdentifier = [c] := by
  have hnodup : ((columns.filter Column.isIdentifier).map Column.name).Nodup :=
    hnames.sublist (List.filter_sublist.map _)
  have hname : ∀ c ∈ columns.filter Column.isIdentifier, c.name = Column.identifierName :=
    fun c hc => Column.name_of_isIdentifier (List.mem_filter.mp hc).2
  obtain ⟨d, hd, hid⟩ := List.any_eq_true.mp h
  have hmem : d ∈ columns.filter Column.isIdentifier := List.mem_filter.mpr ⟨hd, hid⟩
  generalize columns.filter Column.isIdentifier = ids at hnodup hname hmem
  cases ids with
  | nil => cases hmem
  | cons c rest =>
    cases rest with
    | nil => exact ⟨c, rfl⟩
    | cons e rest =>
      have hsame : c.name = e.name :=
        (hname c (List.mem_cons_self ..)).trans
          (hname e (List.mem_cons_of_mem c (List.mem_cons_self ..))).symm
      rw [List.map_cons, List.map_cons, hsame] at hnodup
      exact absurd (List.mem_cons_self ..) (List.nodup_cons.mp hnodup).1

/-- Of the finished columns exactly one is an identifier. -/
theorem filter_isIdentifier_finished (hnames : (columns.map Column.name).Nodup)
    (families : NameSet) :
    ∃ c, (finishedColumns columns families).filter Column.isIdentifier = [c] := by
  have hrest : ∀ names : List String,
      (names.map fun f => Column.wholeFamily f .map).filter Column.isIdentifier = [] := by
    intro names
    rw [List.filter_eq_nil_iff]
    intro c hc
    obtain ⟨f, -, rfl⟩ := List.mem_map.mp hc
    exact Bool.false_ne_true
  simp only [finishedColumns, List.filter_append, hrest, List.append_nil]
  cases hid : columns.any Column.isIdentifier with
  | true =>
    simp only [if_true, List.filter_nil, List.nil_append]
    exact filter_isIdentifier_of_any hnames hid
  | false =>
    have hnone : columns.filter Column.isIdentifier = [] := by
      rw [List.filter_eq_nil_iff]
      exact fun c hc hc' => by simpa [hc'] using List.any_eq_false.mp hid c hc
    rw [hnone]
    exact ⟨Column.identifier .binary, rfl⟩

/-- The finished columns belong to the families, and every family has one. -/
theorem familiesOf_finished (h : ∀ c ∈ columns, ∀ f, c.family = some f → f ∈ families) :
    Column.familiesOf (finishedColumns columns families) = families := by
  refine NameSet.ext_mem fun f => ?_
  rw [Column.mem_familiesOf]
  constructor
  · rintro ⟨c, hc, hf⟩
    exact mem_families_of_finished h c hc f hf
  · intro hf
    simp only [finishedColumns, List.mem_append, List.mem_map]
    by_cases hdeclared : f ∈ Column.familiesOf columns
    · obtain ⟨c, hc, hfamily⟩ := Column.mem_familiesOf.mp hdeclared
      exact ⟨c, .inl (.inr hc), hfamily⟩
    · exact ⟨Column.wholeFamily f .map, .inr ⟨f, NameSet.mem_diff.mpr ⟨hf, hdeclared⟩, rfl⟩, rfl⟩

/-- A request that passes its check and declares no name twice makes a table of the right shape. -/
theorem shapedBy_table {r : TableRequest} {fs : NameSet} (h : r.validFamilies = .ok fs)
    (hnames : (r.columns.map Column.name).Nodup) (schemaName tableName : String) :
    (r.table schemaName tableName fs).ShapedBy r.columns := by
  have hclosed := closed_table h schemaName tableName
  have hdeclared := (validFamilies_eq_ok h).2.2
  obtain ⟨c, hc⟩ := filter_isIdentifier_finished hnames fs
  have hid : (r.table schemaName tableName fs).idColumn = some c := by
    rw [Table.idColumn, ← List.head?_filter]
    exact congrArg List.head? hc
  refine ⟨familiesOf_finished hdeclared, ⟨c, hc, hid⟩, ?_, fun d hd => ?_⟩
  · refine ⟨(fs.diff (Column.familiesOf r.columns)).names, rfl, NameSet.sorted _, fun f => ?_⟩
    rw [← NameSet.mem_def, NameSet.mem_diff, Column.mem_familiesOf]
    simp only [not_exists, not_and]
    rfl
  · unfold Table.hasColumn
    cases hf : d.family with
    | none =>
      rw [hid]
      rfl
    | some f =>
      have hcovers : (r.table schemaName tableName fs).columns.any (Table.covers · d) = true :=
        List.any_eq_true.mpr ⟨d, hd, by simp [Table.covers]⟩
      simp only [hclosed d hd f hf, hcovers, decide_true, Bool.and_self]

end TableRequest

end WideColumn
