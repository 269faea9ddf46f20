import WideColumn.Proofs.Row.WellFormed

/-!
# The value that was given last

A value that is given for a column replaces the former one of that column and
keeps its place. Cells are overlaid in the order of the places, so the value
that was given last is the one that is written only if no column with a later
place gives the same cell. A column that had no value before comes last, and is
never shadowed.
-/

namespace WideColumn.RowDraft

open OrderedMap

variable {T : Table}

/-- The draft after a further attempt that succeeds is again a reached one. -/
theorem reached_of_take {l : List Staging} {s : Staging} {d' : RowDraft}
    (h : (reached T l).take s = .ok d') : reached T (l ++ [s]) = d' := by
  rw [reached, List.foldl_append]
  change (reached T l).attempt s = d'
  rw [attempt, h]

/-- A value that is taken for a column that is no identifier is kept under the table's own column,
and is a mapping if the column is a whole family. -/
theorem values_of_take {d d' : RowDraft} {a : ColumnArgument} {v : Value} {c : Column}
    (ha : a.column = .ok c) (hc : c.isIdentifier = false) (h : d.take (.value a v) = .ok d') :
    d.table.hasColumn c = true ∧ (c.qualifier = none → v.isMapping = true) ∧
      d'.values = d.values.insert (resolve d.table c) v := by
  obtain ⟨c', ha', hstage⟩ := take_value_eq_ok h
  cases ha.symm.trans ha'
  rcases stage_eq_ok hstage with ⟨hid, -⟩ | ⟨-, hcol, hmap, rfl⟩
  · cases hc.symm.trans hid
  · exact ⟨hcol, hmap, rfl⟩

/-- The cell of a finished row is what the last kept value gives, unless a family is called like the
identifier. -/
theorem cell?_build (hid : Column.identifierName ∉ T.families) (l : List Staging) {C : Cells}
    (hC : (reached T l).build.cells = .ok C) (f q : String) :
    C.cell? f q = Row.lastGiven? (reached T l).values.entries f q := by
  rw [Row.cell?_cells hC, entries_build (isIdentifier_of_reached hid l),
    Row.lastGiven?_append, Row.lastGiven?_of_identifiers isIdentifier_of_mem_idEntries,
    Option.or_none]

/-- What a bound value gives comes before what later places give, and after all else. -/
theorem lastGiven?_insert (m : OrderedMap Column Value) (k : Column) (v : Value) (f q : String) :
    Row.lastGiven? (m.insert k v).entries f q =
      (Row.lastGiven? (m.entriesAfter k) f q).or
        ((Row.given? k v f q).or (Row.lastGiven? (m.entriesBefore k) f q)) := by
  rw [entries_insert, Row.lastGiven?_append, Row.lastGiven?_cons, Option.or_assoc]

/-- A value that is given for a column gives its cells the values that it holds for them, except
where a column with a later place gives the same cell. -/
theorem cell?_of_take (hT : T.Closed) (hid : Column.identifierName ∉ T.families)
    (hapart : Column.Apart T.families.names T.families.names) {l : List Staging}
    {a : ColumnArgument} {v : Value} {c : Column} {d' : RowDraft} (ha : a.column = .ok c)
    (hc : c.isIdentifier = false) (h : (reached T l).take (.value a v) = .ok d') {C : Cells}
    (hC : d'.build.cells = .ok C) {f q : String} {w : Value} (hw : Row.given? c v f q = some w) :
    C.cell? f q =
      some ((Row.lastGiven? ((reached T l).values.entriesAfter (resolve T c)) f q).getD w) := by
  obtain ⟨hcol, -, hvalues⟩ := values_of_take ha hc h
  rw [table_reached] at hcol hvalues
  obtain ⟨g, hg⟩ := Column.isIdentifier_eq_false_iff.mp hc
  obtain ⟨hf, hq⟩ := place_resolve_of_taken hapart hT hid hcol hg
  have hcell : C.cell? f q = Row.lastGiven? d'.values.entries f q := by
    rw [← reached_of_take h] at hC ⊢
    exact cell?_build hid _ hC f q
  rw [hcell, hvalues, lastGiven?_insert, Row.given?_congr hf hq, hw, Option.some_or]
  cases Row.lastGiven? ((reached T l).values.entriesAfter (resolve T c)) f q with
  | none => rfl
  | some x => rfl

/-- For every key of a mapping some binding has the text of the key last. -/
theorem exists_lastUnder {entries : List (Value × Value)} {e : Value × Value} (he : e ∈ entries) :
    ∃ w, Value.lastUnder e.1.plainText entries = some w := by
  rw [← Option.isSome_iff_exists, Value.lastUnder, Option.isSome_map, List.find?_isSome]
  exact ⟨e, List.mem_reverse.mpr he, decide_eq_true rfl⟩

/-- The value that was given last is the one that is written. Only a column whose own place is later
can give its cell another value, and only if the column had one before. -/
theorem cell_of_last_staging (hT : T.Made) (hid : Column.identifierName ∉ T.families)
    (hapart : Column.Apart T.families.names T.families.names) (l : List Staging)
    {a : ColumnArgument} {v : Value} {c : Column} {d' : RowDraft} (ha : a.column = .ok c)
    (hc : c.isIdentifier = false) (h : (reached T l).take (.value a v) = .ok d') :
    let shadow := Row.lastGiven? ((reached T l).values.entriesAfter (resolve T c))
    (resolve T c ∉ (reached T l).values.keys → ∀ f q, shadow f q = none) ∧
      ∃ C, d'.build.cells = .ok C ∧
        (∀ f q, c.family = some f → c.qualifier = some q →
          C.cell? f q = some ((shadow f q).getD v)) ∧
        (∀ f, c.family = some f → c.qualifier = none → ∃ entries, v = .mapping entries ∧
          ∀ e ∈ entries, ∃ w, Value.lastUnder e.1.plainText entries = some w ∧
            C.cell? f e.1.plainText = some ((shadow f e.1.plainText).getD w)) := by
  intro shadow
  have hclosed := hT.closed
  obtain ⟨C, hC⟩ : ∃ C, d'.build.cells = .ok C := by
    rw [← reached_of_take h]
    exact exists_cells_build hclosed hapart _
  refine ⟨fun hnew f q => ?_, C, hC, fun f q hf hq => ?_, fun f hf hq => ?_⟩
  · have hnone : (reached T l).values.entriesAfter (resolve T c) = [] :=
      entriesAfter_of_not_mem hnew
    simp only [shadow, hnone]
    rfl
  · refine cell?_of_take hclosed hid hapart ha hc h hC ?_
    rw [Row.given?_of_qualifier hf hq, if_pos ⟨rfl, rfl⟩]
  · obtain ⟨-, hmap, -⟩ := values_of_take ha hc h
    obtain ⟨entries, rfl⟩ := (Value.isMapping_iff v).mp (hmap hq)
    refine ⟨entries, rfl, fun e he => ?_⟩
    obtain ⟨w, hw⟩ := exists_lastUnder he
    refine ⟨w, hw, cell?_of_take hclosed hid hapart ha hc h hC ?_⟩
    rw [Row.given?_of_wholeFamily hf hq, if_pos rfl, hw]

/-- A whole family is given again, with two keys of one text, after a column of another type gave
one of its cells: the last of the two keys wins, and the other column shadows its cell. -/
theorem cell_of_last_staging_twice :
    let T : Table := ⟨"s", "t", [.identifier .binary, .wholeFamily "b:c" .map,
      .wholeFamily "stats" .map], NameSet.ofList ["stats", "b:c"]⟩
    let l : List Staging := [.value (.named "stats") (.mapping []),
      .value (.given ⟨some "stats", some "clicks", .text⟩) (.int 1), .value (.named "b:c") (.int 2)]
    let entries : List (Value × Value) :=
      [(.int 1, .text "a"), (.text "1", .text "b"), (.text "clicks", .int 5)]
    let s : Staging := .value (.named "stats") (.mapping entries)
    T.Made ∧ (reached T l).take s = .ok (reached T (l ++ [s])) ∧
      ∃ C, (reached T (l ++ [s])).build.cells = .ok C ∧
        C.cell? "stats" "1" = some (.text "b") ∧ C.cell? "stats" "clicks" = some (.int 1) := by
  intro T l entries s
  have hmade : T.Made :=
    ⟨⟨some "t", some (NameSet.ofList ["b:c", "stats"]), [], false⟩, _, ⟨"s", ∅⟩, _,
      .of (.memory .empty), _, rfl⟩
  have htake : (reached T l).take s = .ok (reached T (l ++ [s])) := rfl
  have hcolumn : (ColumnArgument.named "stats").column = .ok (.wholeFamily "stats" .map) := rfl
  obtain ⟨-, C, hC, -, hwhole⟩ :=
    cell_of_last_staging hmade (by decide) (by decide) l hcolumn rfl htake
  obtain ⟨_, hentries, hcells⟩ := hwhole "stats" rfl rfl
  cases hentries
  obtain ⟨w, hw, hone⟩ := hcells (.text "1", .text "b") (by simp [entries])
  obtain ⟨x, hx, hclicks⟩ := hcells (.text "clicks", .int 5) (by simp [entries])
  cases hw
  exact ⟨hmade, htake, C, hC, hone, hclicks⟩

/-- The condition on later places is needed: a cell is given, then its whole family, then the cell
once more. The last value is taken, and the second one is written. -/
theorem last_staging_is_shadowed :
    let T : Table := ⟨"s", "t", [.identifier .binary, .wholeFamily "stats" .map],
      NameSet.ofList ["stats"]⟩
    let l : List Staging := [.value (.named "stats:clicks") (.int 1),
      .value (.named "stats") (.mapping [(.text "clicks", .int 2)])]
    let s : Staging := .value (.named "stats:clicks") (.int 3)
    T.Made ∧ (reached T l).take s = .ok (reached T (l ++ [s])) ∧
      ∃ C, (reached T (l ++ [s])).build.cells = .ok C ∧
        C.cell? "stats" "clicks" = some (.int 2) ∧ C.cell? "stats" "clicks" ≠ some (.int 3) :=
  ⟨⟨⟨some "t", some (NameSet.ofList ["stats"]), [], false⟩, _, ⟨"s", ∅⟩, _,
      .of (.memory .empty), _, rfl⟩, rfl, _, rfl, rfl, nofun⟩

end WideColumn.RowDraft
