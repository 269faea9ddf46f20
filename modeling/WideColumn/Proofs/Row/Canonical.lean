import WideColumn.Proofs.Row.Keeping

/-!
# Staged columns are canonical

A draft keeps a value under the table's own column of the given name, and under
the given column only if the table declares none of that name. So a finished
row has at most one value for a declared name, however the columns were typed
or addressed, and it is the one that was given last. All this holds for any
table, also for one with several columns of one name.
-/

namespace WideColumn.RowDraft

open OrderedMap

variable {T : Table}

/-- The table declares no column of that name, and takes the column since a declared one stands for
its whole family. -/
structure CoveredByFamily (T : Table) (c : Column) : Prop where
  /-- No column of that name is declared. -/
  undeclared : ∀ d ∈ T.columns, d.name ≠ c.name
  /-- The table takes values for the column. -/
  taken : T.hasColumn c = true
  /-- A declared column stands for the family. -/
  family : ∃ f, c.family = some f ∧ ∃ d ∈ T.columns, d.family = some f ∧ d.qualifier = none

/-- A value is kept under the column that the table finds under its name, or under a column that
only a whole family covers. -/
theorem canonical_resolve {c : Column} (hc : c.isIdentifier = false) (hcol : T.hasColumn c = true) :
    T.getColumn (resolve T c).name = some (resolve T c) ∨ CoveredByFamily T (resolve T c) := by
  rw [name_resolve]
  cases hget : T.getColumn c.name with
  | some d =>
    refine .inl ?_
    rw [resolve, hget, Option.getD_some]
  | none =>
    have hself : resolve T c = c := by rw [resolve, hget, Option.getD_none]
    have hundeclared : ∀ d ∈ T.columns, d.name ≠ c.name := fun d hd => by
      simpa using List.find?_eq_none.mp hget d hd
    refine .inr ⟨?_, ?_, ?_⟩
    · rwa [hself]
    · rwa [hself]
    · obtain ⟨f, hf⟩ := Column.isIdentifier_eq_false_iff.mp hc
      simp only [Table.hasColumn, hf, Bool.and_eq_true, List.any_eq_true] at hcol
      obtain ⟨-, d, hd, hcovers⟩ := hcol
      obtain ⟨hfamily, hqualifier⟩ := of_decide_eq_true hcovers
      rw [hself]
      refine ⟨f, hf, d, hd, hfamily.trans hf, ?_⟩
      -- A declared column of the same qualifier would have the name of the column.
      exact hqualifier.resolve_right fun hsame => hundeclared d hd (Column.name_congr hfamily hsame)

/-- The values of a declared name are those that are kept under the column found there. -/
theorem resolve_eq_iff {n : String} {k : Column} (hk : T.getColumn n = some k) {c : Column} :
    resolve T c = k ↔ c.name = n := by
  constructor
  · intro h
    rw [← name_resolve T c, h, Table.name_of_getColumn hk]
  · rintro rfl
    rw [resolve, hk, Option.getD_some]

/-- The value that an attempt gives to a column of the name that is no identifier. -/
def Staging.givenUnder? (n : String) : Staging → Option Value
  | .identifier _ => none
  | .value a v =>
    match a.column with
    | .ok c => if c.isIdentifier = false ∧ c.name = n then some v else none
    | .error _ => none

/-- An attempt that succeeds changes a draft under the names only that it gives a value. -/
theorem get?_of_take {d d' : RowDraft} {s : Staging} {n : String} {k : Column}
    (hk : d.table.getColumn n = some k) (h : d.take s = .ok d') :
    d'.values.get? k = (s.givenUnder? n).or (d.values.get? k) := by
  cases s with
  | identifier v =>
    obtain ⟨-, -, rfl⟩ := stageId_eq_ok h
    rfl
  | value a v =>
    obtain ⟨c, ha, hstage⟩ := take_value_eq_ok h
    rcases stage_eq_ok hstage with ⟨hc, hid⟩ | ⟨hc, -, -, rfl⟩
    · obtain ⟨-, -, rfl⟩ := stageId_eq_ok hid
      simp only [Staging.givenUnder?, ha, hc, Bool.true_eq_false, false_and, if_false,
        Option.none_or]
    · simp only [Staging.givenUnder?, ha, hc, true_and, get?_insert, resolve_eq_iff hk]
      split <;> rfl

/-- What is kept under a declared name is the value that the last successful attempt gave under it,
or else what was kept before; by induction on the attempts. -/
theorem get?_foldl_attempt {n : String} {k : Column} (hk : T.getColumn n = some k)
    (l : List Staging) {d : RowDraft} (hd : d.table = T) :
    (l.foldl attempt d).values.get? k =
      ((d.succeeded l).reverse.findSome? (Staging.givenUnder? n)).or (d.values.get? k) := by
  induction l generalizing d with
  | nil => rfl
  | cons s rest ih =>
    rw [List.foldl_cons, succeeded, attempt]
    cases h : d.take s with
    | error e => exact ih hd
    | ok d' =>
      have hlast := get?_of_take (hd ▸ hk) h
      simp only [ih ((table_of_take h).trans hd), List.reverse_cons, List.findSome?_append,
        List.findSome?_singleton, Option.or_assoc, hlast]

/-- The identifier changes nothing about the other values of a finished row. -/
theorem get?_build {d : RowDraft} {k : Column} (hk : k.isIdentifier = false) :
    d.build.values.get? k = d.values.get? k := by
  have hnone : lookupEntry k d.idEntries = none := by
    rw [lookupEntry_eq_none_iff]
    intro hmem
    obtain ⟨e, he, rfl⟩ := List.mem_map.mp hmem
    cases hk.symm.trans (isIdentifier_of_mem_idEntries e he)
  change d.finishedValues.get? k = _
  rw [finishedValues_eq, get?_union, get?_ofList d.nodup_idEntries, hnone, Option.or_none]

/-- Every column of a finished row but the identifier of the table is the one that the table finds
under its name, or one that only a whole family covers. -/
theorem canonical_of_build (l : List Staging) {c : Column} (hc : c ∈ (reached T l).build.columns) :
    T.idColumn = some c ∨ T.getColumn c.name = some c ∨ CoveredByFamily T c := by
  obtain ⟨⟨k, v⟩, he, rfl⟩ := List.mem_map.mp hc
  rcases mem_entries_build he with ⟨hid, -⟩ | hkept
  · rw [table_reached] at hid
    exact .inl hid
  · obtain ⟨c, hident, hcol, -, rfl⟩ := keepable_of_reached l hkept
    exact .inr (canonical_resolve hident hcol)

/-- Each column of a finished row but the identifier is the one that the table finds under its name,
or lies in a whole family under a name that the table does not declare. -/
theorem staged_columns_are_canonical (T : Table) (l : List Staging) :
    let r := (reached T l).build
    (∀ c ∈ r.columns, T.idColumn = some c ∨ T.getColumn c.name = some c ∨ CoveredByFamily T c) ∧
      ∀ n k, T.getColumn n = some k → k.isIdentifier = false →
        r.values.entries.filter (fun e => !e.1.isIdentifier && e.1.name = n) =
          (((new T).succeeded l).reverse.findSome? (Staging.givenUnder? n)).toList.map
            fun v => (k, v) := by
  intro r
  refine ⟨fun c hc => canonical_of_build l hc, fun n k hk hident => ?_⟩
  have hsame : ∀ e ∈ r.values.entries,
      (!e.1.isIdentifier && decide (e.1.name = n)) = decide (e.1 = k) := by
    intro e he
    rw [Bool.eq_iff_iff, Bool.and_eq_true, Bool.not_eq_true', decide_eq_true_eq, decide_eq_true_eq]
    constructor
    · rintro ⟨hother, hname⟩
      rcases canonical_of_build l (List.mem_map_of_mem he) with hid | hfound | hcovered
      · cases hother.symm.trans (Table.isIdentifier_of_idColumn hid)
      · rw [hname, hk] at hfound
        exact (Option.some.inj hfound).symm
      · have hdeclared := hcovered.undeclared k (Table.mem_of_getColumn hk)
        exact absurd ((Table.name_of_getColumn hk).trans hname.symm) hdeclared
    · rintro rfl
      exact ⟨hident, Table.name_of_getColumn hk⟩
  have hlast : r.values.get? k =
      ((new T).succeeded l).reverse.findSome? (Staging.givenUnder? n) := by
    rw [get?_build hident, reached, get?_foldl_attempt hk l rfl]
    exact Option.or_none
  rw [List.filter_congr hsame, filter_key, hlast]

/-- A table that declares one name twice and a family called like the identifier. The name is given
three times, each time with another type, and the first declaration keeps the last value. -/
theorem staged_columns_are_canonical_when_repeated :
    let T : Table := ⟨"s", "t", [.cell "a" "q" .int, .wholeFamily "_id" .map, .identifier .text,
      .cell "a" "q" .text, .wholeFamily "b" .map], NameSet.ofList ["_id", "a", "b"]⟩
    let l : List Staging := [.value (.named "a:q") (.int 1), .value (.named "_id") (.text "k"),
      .value (.given (.wholeFamily "_id" .text)) (.mapping []), .value (.named "a:z") (.int 2),
      .value (.given (.cell "a" "q" .text)) (.int 3), .value (.given (.cell "b" "x" .int)) .null,
      .value (.given (.cell "a" "q" .map)) (.list [])]
    let r := (reached T l).build
    r.columns = [.identifier .text, .cell "a" "q" .int, .wholeFamily "_id" .map,
        .cell "b" "x" .int] ∧
      r.values.entries.filter (fun e => !e.1.isIdentifier && e.1.name = "a:q") =
        [(.cell "a" "q" .int, .list [])] ∧
      r.values.entries.filter (fun e => !e.1.isIdentifier && e.1.name = "_id") =
        [(.wholeFamily "_id" .map, .mapping [])] ∧
      CoveredByFamily T (.cell "b" "x" .int) := by
  intro T l r
  obtain ⟨hcanonical, hnames⟩ := staged_columns_are_canonical T l
  have hcolumns : r.columns = [.identifier .text, .cell "a" "q" .int, .wholeFamily "_id" .map,
      .cell "b" "x" .int] := by
    simp only [T, l, r]
    rfl
  have hcovered := hcanonical (.cell "b" "x" .int) (by rw [hcolumns]; decide)
  exact ⟨hcolumns, hnames "a:q" _ rfl rfl, hnames "_id" _ rfl rfl,
    (hcovered.resolve_left nofun).resolve_left nofun⟩

end WideColumn.RowDraft
