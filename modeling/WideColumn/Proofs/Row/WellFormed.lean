import WideColumn.Proofs.MadeTable
import WideColumn.Proofs.Row.Keeping

/-!
# Finished rows are well formed

A finished row of a table that was made has columns that the table takes and at
most one identifier. It has cells unless a family is called like a cell of
another, and its identifier is the one given first unless a family is called
like the identifier. Families of such names are not refused, and then a value
that was checked for one column is kept under another.
-/

namespace WideColumn.RowDraft

open OrderedMap

variable {T : Table}

/-- Every column of a finished row is one that its table takes. -/
theorem hasColumn_of_build (hT : T.Closed) (l : List Staging) {c : Column}
    (hc : c ∈ (reached T l).build.columns) : T.hasColumn c = true := by
  obtain ⟨⟨k, v⟩, he, rfl⟩ := List.mem_map.mp hc
  rcases mem_entries_build he with ⟨hid, -⟩ | hkept
  · rw [table_reached] at hid
    exact Table.hasColumn_of_mem hT (List.mem_of_find?_eq_some hid)
  · exact (keepable_of_reached l hkept).hasColumn hT

/-- An identifier in a finished row is the first identifier of its table. -/
theorem idColumn_of_build (l : List Staging) {c : Column}
    (hc : c ∈ (reached T l).build.columns) (hid : c.isIdentifier = true) :
    T.idColumn = some c := by
  obtain ⟨⟨k, v⟩, he, rfl⟩ := List.mem_map.mp hc
  rcases mem_entries_build he with ⟨hfirst, -⟩ | hkept
  · rwa [table_reached] at hfirst
  · exact (keepable_of_reached l hkept).idColumn hid

/-- A finished row has cells, unless a family is called like a cell of another. -/
theorem exists_cells_build (hT : T.Closed) (hapart : Column.Apart T.families.names T.families.names)
    (l : List Staging) : ∃ C, (reached T l).build.cells = .ok C := by
  refine Row.exists_cells_iff.mpr fun ⟨k, v⟩ he => ?_
  rcases mem_entries_build he with ⟨hid, -⟩ | hkept
  · intro hk
    rw [Table.isIdentifier_of_idColumn hid] at hk
    cases hk
  · exact (keepable_of_reached l hkept).readable hT hapart

/-- The identifier of a finished row is the one that its draft has, unless a family is called like
it. -/
theorem idValue_build_of_reached (hid : Column.identifierName ∉ T.families) (l : List Staging) :
    (reached T l).build.idValue = (reached T l).id.getD .null := by
  refine idValue_build (isIdentifier_of_reached hid l) fun v hv => ?_
  rw [table_reached]
  exact idColumn_of_id hv

/-- The identifier of a finished row is the first that was successfully given, unless a family is
called like it. -/
theorem idValue_build_reached (hid : Column.identifierName ∉ T.families) (l : List Staging) :
    (reached T l).build.idValue =
      (((new T).succeeded l).findSome? Staging.identifier?).getD .null := by
  rw [idValue_build_of_reached hid, id_reached]

/-- A row that is drafted for a table that was made is well formed, and has its cells and the
identifier first given unless a family is called like a cell or the identifier. -/
theorem build_wellFormed (hT : T.Made) (l : List Staging) :
    let r := (reached T l).build
    (∀ c ∈ r.columns, T.hasColumn c = true) ∧
      (∀ c ∈ r.columns, ∀ d ∈ r.columns, c.isIdentifier = true → d.isIdentifier = true → c = d) ∧
      (Column.Apart T.families.names T.families.names → ∃ C, r.cells = .ok C) ∧
      (Column.identifierName ∉ T.families →
        r.idValue = (((new T).succeeded l).findSome? Staging.identifier?).getD .null) := by
  refine ⟨fun c hc => hasColumn_of_build hT.closed l hc, fun c hc d hd hcid hdid => ?_,
    fun hapart => exists_cells_build hT.closed hapart l, fun hid => idValue_build_reached hid l⟩
  have hsame := (idColumn_of_build l hc hcid).symm.trans (idColumn_of_build l hd hdid)
  exact Option.some.inj hsame

/-- A table with a family `b:c`, but none called `b`. Among the attempts are one for an unknown
column, one without a mapping and two late ones at the identifier. -/
theorem build_wellFormed_after_refusals :
    let T : Table := ⟨"s", "t", [.cell "a" "q" .int, .identifier .text, .wholeFamily "b:c" .map],
      NameSet.ofList ["b:c", "a"]⟩
    let l : List Staging := [.value (.named "b:c") (.int 1), .value (.given ⟨some "b:c", none, .map⟩)
        (.int 2), .value (.named "a:q") (.int 3), .value (.named "_id") (.text "k"),
      .value (.given ⟨some "b:c", some "d", .int⟩) (.int 4), .identifier (.text "l"),
      .value (.given ⟨none, some "x", .int⟩) (.text "m")]
    let r := (reached T l).build
    T.Made ∧ r.idValue = .text "k" ∧
      (∀ c ∈ r.columns, T.hasColumn c = true) ∧
      (∀ c ∈ r.columns, ∀ d ∈ r.columns, c.isIdentifier = true → d.isIdentifier = true → c = d) ∧
      ∃ C, r.cells = .ok C := by
  intro T l r
  have hmade : T.Made :=
    ⟨⟨some "t", some (NameSet.ofList ["b:c", "a"]), [.cell "a" "q" .int, .identifier .text], false⟩,
      _, ⟨"s", ∅⟩, _, .of (.memory .empty), _, rfl⟩
  obtain ⟨hcolumns, hone, hcells, hid⟩ := build_wellFormed hmade l
  exact ⟨hmade, hid (by decide), hcolumns, hone, hcells (by decide)⟩

/-- With a family `a:b` a number for the cell `a:b` is kept for the whole family and the row has no
cells; with a family `_id` a mapping replaces the identifier. -/
theorem build_illFormed_of_doubtful_names :
    let T : Table := ⟨"s", "t", [.identifier .binary, .wholeFamily "a" .map,
      .wholeFamily "a:b" .map], NameSet.ofList ["a", "a:b"]⟩
    let l : List Staging := [.value (.named "a:b") (.int 1)]
    let T' : Table := ⟨"s", "t", [.identifier .binary, .wholeFamily "_id" .map],
      NameSet.ofList ["_id"]⟩
    let l' : List Staging := [.identifier (.text "k"),
      .value (.given (.wholeFamily "_id" .map)) (.mapping [(.text "x", .int 1)])]
    (T.Made ∧ (new T).succeeded l = l ∧ (reached T l).build.cells = .error .wrongKind) ∧
      T'.Made ∧ (new T').succeeded l' = l' ∧ l'.findSome? Staging.identifier? = some (.text "k") ∧
      (reached T' l').build.idValue = .mapping [(.text "x", .int 1)] :=
  ⟨⟨⟨⟨some "t", some (NameSet.ofList ["a", "a:b"]), [], false⟩, _, ⟨"s", ∅⟩, _,
      .of (.memory .empty), _, rfl⟩, rfl, rfl⟩,
    ⟨⟨some "t", some (NameSet.ofList ["_id"]), [], false⟩, _, ⟨"s", ∅⟩, _,
      .of (.memory .empty), _, rfl⟩, rfl, rfl, rfl⟩

end WideColumn.RowDraft
