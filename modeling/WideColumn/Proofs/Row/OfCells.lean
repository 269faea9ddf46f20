import WideColumn.Proofs.Row.Keeping

/-!
# Rows that are made of cells

Cells are staged one by one: each is given a name joined of its family and its
qualifier, the name is read back, and the value is kept under the table's own
column of that name. A row that comes of it has the given identifier. Its cells
are the given ones exactly when every name leads back to the cell it was made of.
-/

namespace WideColumn

open OrderedMap

/-- The joined name of a cell leads to that cell. If a column is declared under the name, it belongs
to the family of the cell. If none is, the family has no colon, and the name is cut after it. -/
def Table.NamesCell (t : Table) (f q : String) : Prop :=
  match t.getColumn (Column.joinName f q) with
  | some c => c.family = some f
  | none => ':' ∉ f.toList

/-- Without colons in families every name leads to its cell. -/
theorem Table.namesCell_of_not_mem {t : Table} (ht : ∀ c ∈ t.columns, ∀ g, c.family = some g →
    ':' ∉ g.toList) {f : String} (hf : ':' ∉ f.toList) (q : String) : t.NamesCell f q := by
  unfold NamesCell
  cases hget : t.getColumn (Column.joinName f q) with
  | none => exact hf
  | some c =>
    exact Column.family_of_name (ht c (Table.mem_of_getColumn hget)) hf
      (Table.name_of_getColumn hget)

namespace RowDraft

/-- The column under which the value of a cell is kept. -/
def cellColumn (t : Table) (cell : String × String) : Column :=
  resolve t (Column.ofJoined cell.1 cell.2)

@[simp] theorem name_cellColumn (t : Table) (cell : String × String) :
    (cellColumn t cell).name = Column.joinName cell.1 cell.2 := by
  rw [cellColumn, name_resolve, Column.name_ofJoined]

/-- Cells of one name are kept under one column. -/
theorem cellColumn_congr (t : Table) {f g q p : String}
    (h : Column.joinName f q = Column.joinName g p) : cellColumn t (f, q) = cellColumn t (g, p) := by
  simp only [cellColumn, Column.ofJoined, h]

/-- A name that is joined of two parts never stands for the identifier. -/
theorem isIdentifier_cellColumn (t : Table) (cell : String × String) :
    (cellColumn t cell).isIdentifier = false := by
  rw [← Bool.not_eq_true]
  intro h
  have hname := Column.name_of_isIdentifier h
  rw [name_cellColumn] at hname
  exact Column.joinName_ne_identifierName _ _ hname

/-- The draft with the values of cells bound in turn. -/
def withCells (d : RowDraft) (l : List ((String × String) × Value)) : RowDraft :=
  { d with values := d.values.insertAll (l.map fun e => (cellColumn d.table e.1, e.2)) }

theorem withCells_append (d : RowDraft) (l l' : List ((String × String) × Value)) :
    d.withCells (l ++ l') = (d.withCells l).withCells l' := by
  simp only [withCells, insertAll, List.map_append, List.foldl_append]

/-- Every column that was filled in comes from a cell. -/
theorem mem_keys_withCells {d : RowDraft} (hd : d.values = ∅)
    {l : List ((String × String) × Value)} {c : Column} (hc : c ∈ (d.withCells l).values.keys) :
    ∃ e ∈ l, cellColumn d.table e.1 = c := by
  rw [withCells, hd, mem_keys_insertAll, List.map_map, List.mem_map] at hc
  exact hc.resolve_left List.not_mem_nil

/-- Cells are not kept under the identifier. -/
theorem isIdentifier_withCells {d : RowDraft} (hd : d.values = ∅)
    (l : List ((String × String) × Value)) :
    ∀ e ∈ (d.withCells l).values.entries, e.1.isIdentifier = false := by
  intro e he
  obtain ⟨b, -, hb⟩ := mem_keys_withCells hd (List.mem_map_of_mem he)
  rw [← hb]
  exact isIdentifier_cellColumn d.table b.1

/-- A cell that is staged under its joined name is one that the table takes. -/
theorem stageNamed_joinName_eq_ok {d d' : RowDraft} {f q : String} {v : Value}
    (h : d.stageNamed (Column.joinName f q) v = .ok d') :
    d.table.hasColumn (Column.ofJoined f q) = true ∧ d' = d.withCells [((f, q), v)] := by
  unfold stageNamed at h
  split at h
  · rename_i c hc
    cases Column.eq_ofJoined_of_parse hc
    rcases stage_eq_ok h with ⟨hid, -⟩ | ⟨-, hcol, -, rfl⟩
    · have hname := Column.name_of_isIdentifier hid
      rw [Column.name_ofJoined] at hname
      exact absurd hname (Column.joinName_ne_identifierName f q)
    · exact ⟨hcol, rfl⟩
  · cases h

/-- A family is taken exactly as its cells, all of which are columns of the table. -/
theorem stageFamily_eq_ok {d d' : RowDraft} {f : String} {l : List (String × Value)}
    (h : d.stageFamily f l = .ok d') :
    (∀ e ∈ l, d.table.hasColumn (Column.ofJoined f e.1) = true) ∧
      d' = d.withCells (l.map fun e => ((f, e.1), e.2)) := by
  induction l generalizing d with
  | nil =>
    cases h
    exact ⟨nofun, rfl⟩
  | cons e rest ih =>
    obtain ⟨q, v⟩ := e
    rw [stageFamily] at h
    split at h
    · rename_i mid hmid
      obtain ⟨hcol, rfl⟩ := stageNamed_joinName_eq_ok hmid
      obtain ⟨hrest, rfl⟩ := ih h
      exact ⟨List.forall_mem_cons.mpr ⟨hcol, hrest⟩, (d.withCells_append [((f, q), v)] _).symm⟩
    · cases h

/-- Cells that are staged are all taken, and are bound one after the other. -/
theorem stageCells_eq_ok {d d' : RowDraft} {l : List (String × OrderedMap String Value)}
    (h : d.stageCells l = .ok d') :
    let flat := l.flatMap fun e => e.2.entries.map fun b => ((e.1, b.1), b.2)
    (∀ e ∈ flat, d.table.hasColumn (Column.ofJoined e.1.1 e.1.2) = true) ∧
      d' = d.withCells flat := by
  induction l generalizing d with
  | nil =>
    cases h
    exact ⟨nofun, rfl⟩
  | cons e rest ih =>
    obtain ⟨f, F⟩ := e
    rw [stageCells] at h
    split at h
    · rename_i mid hmid
      obtain ⟨hfamily, rfl⟩ := stageFamily_eq_ok hmid
      obtain ⟨hrest, rfl⟩ := ih h
      refine ⟨?_, (d.withCells_append _ _).symm⟩
      rw [List.flatMap_cons, List.forall_mem_append, List.forall_mem_map]
      exact ⟨hfamily, hrest⟩
    · cases h

/-- A draft in which at most the identifier was given. -/
structure Started (T : Table) (id : Value) (d : RowDraft) : Prop where
  /-- It is a draft for the table. -/
  table : d.table = T
  /-- Nothing is kept yet. -/
  values : d.values = ∅
  /-- The identifier, or a missing value if it was not given. -/
  id : d.id.getD .null = id
  /-- It was given only if the table has a column for it. -/
  idColumn : ∀ v, d.id = some v → ∃ c, d.table.idColumn = some c

theorem started_new (T : Table) : Started T .null (new T) := ⟨rfl, rfl, rfl, nofun⟩

/-- A draft that was only given its identifier is a start. -/
theorem started_of_stageId {T : Table} {id : Value} {d : RowDraft}
    (h : (new T).stageId id = .ok d) : Started T id d := by
  obtain ⟨hcol, -, rfl⟩ := stageId_eq_ok h
  exact ⟨rfl, rfl, rfl, fun _ _ => Option.isSome_iff_exists.mp hcol⟩

end RowDraft

namespace Row

open RowDraft

variable {T : Table} {id : Value} {cells : Cells} {r : Row}

/-- A row is made of cells by starting a draft and binding all of them, and the table takes each. -/
theorem ofCells_eq_ok (h : ofCells T id cells = .ok r) :
    ∃ d : RowDraft, d.Started T id ∧ r = (d.withCells cells.flat).build ∧
      ∀ e ∈ cells.flat, T.hasColumn (Column.ofJoined e.1.1 e.1.2) = true := by
  obtain ⟨d, hd, hrest⟩ : ∃ d : RowDraft, d.Started T id ∧
      (d.stageCells cells.entries >>= fun d' => pure d'.build) = .ok r := by
    unfold ofCells at h
    split at h
    · exact ⟨new T, started_new T, h⟩
    · cases hid : (new T).stageId id with
      | error e =>
        rw [hid] at h
        cases h
      | ok d =>
        rw [hid] at h
        exact ⟨d, started_of_stageId hid, h⟩
  cases hcells : d.stageCells cells.entries with
  | error e =>
    rw [hcells] at hrest
    cases hrest
  | ok d' =>
    rw [hcells] at hrest
    cases hrest
    obtain ⟨hcols, rfl⟩ := stageCells_eq_ok hcells
    rw [hd.table] at hcols
    exact ⟨d, hd, rfl, hcols⟩

/-- The identifier of a row that is made of cells is the given one. -/
theorem idValue_ofCells (h : ofCells T id cells = .ok r) : r.idValue = id := by
  obtain ⟨d, hd, rfl, -⟩ := ofCells_eq_ok h
  have hkept := isIdentifier_withCells hd.values cells.flat
  rw [idValue_build hkept hd.idColumn]
  exact hd.id

/-- The column under which a cell is kept is one for that cell exactly when the name of the cell
leads to it. -/
theorem place_cellColumn_iff {f q : String} :
    ((cellColumn T (f, q)).family = some f ∧ (cellColumn T (f, q)).qualifier = some q) ↔
      T.NamesCell f q := by
  have hname := name_cellColumn T (f, q)
  obtain ⟨g, p, hcell, hjoin, hcolon⟩ := Column.exists_ofJoined f q
  unfold Table.NamesCell
  cases hget : T.getColumn (Column.joinName f q) with
  | some c =>
    have hcolumn : cellColumn T (f, q) = c := by
      rw [cellColumn, resolve, Column.name_ofJoined, hget]
      rfl
    rw [hcolumn] at hname ⊢
    exact ⟨fun h => h.1, fun h => ⟨h, Column.qualifier_of_name h hname⟩⟩
  | none =>
    have hcolumn : cellColumn T (f, q) = Column.cell g p .binary := by
      rw [cellColumn, resolve, Column.name_ofJoined, hget, hcell]
      rfl
    rw [hcolumn]
    constructor
    · rintro ⟨hg, -⟩
      cases hg
      exact hcolon
    · intro hf
      obtain ⟨rfl, rfl⟩ := Column.joinName_inj hcolon hf hjoin
      exact ⟨rfl, rfl⟩

/-- All given cells are kept under columns of their family and their qualifier. -/
def Placed (T : Table) (cells : Cells) : Prop :=
  ∀ e ∈ cells.flat, (cellColumn T e.1).family = some e.1.1 ∧
    (cellColumn T e.1).qualifier = some e.1.2

/-- Cells are well placed exactly if the name of each leads to it. -/
theorem placed_iff :
    Placed T cells ↔ ∀ f q v, cells.cell? f q = some v → T.NamesCell f q := by
  constructor
  · intro h f q v hv
    exact place_cellColumn_iff.mp (h ((f, q), v) (Cells.mem_flat.mpr hv))
  · intro h e he
    have hcell : cells.cell? e.1.1 e.1.2 = some e.2 := Cells.mem_flat.mp he
    exact place_cellColumn_iff.mpr (h e.1.1 e.1.2 e.2 hcell)

/-- Cells that are placed well do not meet. -/
theorem nodup_cellColumn (h : Placed T cells) :
    (cells.flat.map fun e => cellColumn T e.1).Nodup := by
  have hflat : cells.flat.Pairwise fun e e' => e.1 ≠ e'.1 := List.pairwise_map.mp cells.nodup_flat
  rw [List.Nodup, List.pairwise_map]
  refine hflat.imp_of_mem fun {e e'} he he' hne heq => hne ?_
  obtain ⟨hf, hq⟩ := h e he
  obtain ⟨hf', hq'⟩ := h e' he'
  rw [heq] at hf hq
  exact Prod.ext (Option.some.inj (hf.symm.trans hf')) (Option.some.inj (hq.symm.trans hq'))

/-- Values that are kept under columns of families and qualifiers give the cells of these; the last
one wins. -/
theorem lastGiven?_map {column : String × String → Column} {l : List ((String × String) × Value)}
    (hplace : ∀ e ∈ l, (column e.1).family = some e.1.1 ∧ (column e.1).qualifier = some e.1.2)
    (f q : String) :
    lastGiven? (l.map fun e => (column e.1, e.2)) f q = lookupEntry (f, q) l.reverse := by
  induction l with
  | nil => rfl
  | cons e rest ih =>
    obtain ⟨hfirst, hrest⟩ := List.forall_mem_cons.mp hplace
    rw [List.map_cons, lastGiven?_cons, ih hrest, List.reverse_cons, lookupEntry_append,
      given?_of_qualifier hfirst.1 hfirst.2]
    simp only [lookupEntry, Prod.ext_iff]

/-- The values of a row that is made of cells: the identifier, if it was given, and one for each
cell. -/
theorem entries_ofCells {d : RowDraft} (hd : d.Started T id) (h : Placed T cells) :
    (d.withCells cells.flat).build.values.entries =
      d.idEntries ++ cells.flat.map fun e => (cellColumn T e.1, e.2) := by
  have hkeys : ((cells.flat.map fun e => (cellColumn T e.1, e.2)).map Prod.fst).Nodup := by
    rw [List.map_map]
    exact nodup_cellColumn h
  have hvalues : (d.withCells cells.flat).values.entries =
      cells.flat.map fun e => (cellColumn T e.1, e.2) := by
    rw [withCells, hd.values, hd.table]
    exact entries_insertAll_of_not_mem hkeys fun _ _ => List.not_mem_nil
  rw [entries_build (isIdentifier_withCells hd.values cells.flat), hvalues]
  rfl

/-- The cells of a row whose values are an identifier and values under well placed columns. -/
theorem cells_of_entries {l : List (Column × Value)} (hl : ∀ e ∈ l, e.1.isIdentifier = true)
    (h : Placed T cells)
    (hr : r.values.entries = l ++ cells.flat.map fun e => (cellColumn T e.1, e.2)) :
    ∃ C, r.cells = .ok C ∧ (∀ f q, C.cell? f q = cells.cell? f q) ∧
      ∀ f, f ∈ C.families ↔ ∃ q v, cells.cell? f q = some v := by
  obtain ⟨C, hC⟩ : ∃ C, r.cells = .ok C := by
    refine exists_cells_iff.mpr fun e he => ?_
    rw [hr, List.mem_append, List.mem_map] at he
    rcases he with he | ⟨b, hb, rfl⟩
    · intro hid
      cases hid.symm.trans (hl e he)
    · intro _ hq
      cases hq.symm.trans (h b hb).2
  refine ⟨C, hC, fun f q => ?_, fun f => ?_⟩
  · rw [cell?_cells hC, hr, lastGiven?_append, lastGiven?_of_identifiers hl, Option.or_none,
      lastGiven?_map h, lookupEntry_reverse cells.nodup_flat, Cells.lookupEntry_flat]
  · rw [mem_families_cells hC, columns, keys, hr]
    constructor
    · rintro ⟨c, hc, hf⟩
      rw [List.map_append, List.mem_append, List.mem_map, List.map_map, List.mem_map] at hc
      rcases hc with ⟨e, he, rfl⟩ | ⟨b, hb, rfl⟩
      · rw [Column.isIdentifier_iff.mp (hl e he)] at hf
        cases hf
      · cases hf.symm.trans (h b hb).1
        exact ⟨b.1.2, b.2, Cells.mem_flat.mp hb⟩
    · rintro ⟨q, v, hv⟩
      have hb : ((f, q), v) ∈ cells.flat := Cells.mem_flat.mpr hv
      refine ⟨cellColumn T (f, q), ?_, (h _ hb).1⟩
      rw [List.map_append, List.map_map]
      exact List.mem_append_right _ (List.mem_map.mpr ⟨((f, q), v), hb, rfl⟩)

/-- Where a row made of cells has just these cells, every one of them is well placed. The induction
is on the length of the family. -/
theorem placed_of_faithful {d : RowDraft} (hd : d.Started T id) {C : Cells}
    (hC : (d.withCells cells.flat).build.cells = .ok C)
    (hcells : ∀ f q, C.cell? f q = cells.cell? f q) : Placed T cells := by
  suffices h : ∀ n, ∀ f q v, f.toList.length = n → cells.cell? f q = some v →
      (cellColumn T (f, q)).family = some f ∧ (cellColumn T (f, q)).qualifier = some q from
    fun e he => h _ e.1.1 e.1.2 e.2 rfl (Cells.mem_flat.mp he)
  intro n
  induction n using Nat.strongRecOn with
  | ind n ih =>
    intro f q v hn hv
    rw [← hcells, cell?_cells hC, entries_build (isIdentifier_withCells hd.values cells.flat),
      lastGiven?_append, lastGiven?_of_identifiers isIdentifier_of_mem_idEntries, Option.or_none,
      lastGiven?] at hv
    obtain ⟨e, he, hgiven⟩ := List.exists_of_findSome?_eq_some hv
    obtain ⟨⟨⟨g, p⟩, w⟩, hmem, hkey⟩ :=
      mem_keys_withCells hd.values (List.mem_map_of_mem (List.mem_reverse.mp he))
    rw [hd.table] at hkey
    have hname := name_cellColumn T (g, p)
    rw [hkey] at hname
    obtain ⟨hf, hq | hq⟩ := place_of_given? hgiven
    · rw [Column.name_of_qualifier hf hq] at hname
      rw [cellColumn_congr T hname, hkey]
      exact ⟨hf, hq⟩
    · rw [Column.name_of_wholeFamily hf hq] at hname
      have hlt : g.toList.length < n := by
        rw [← hn, hname]
        exact Column.length_lt_length_joinName g p
      obtain ⟨-, hqualifier⟩ := ih _ hlt g p w rfl (Cells.mem_flat.mp hmem)
      rw [hkey, hq] at hqualifier
      cases hqualifier

/-- A row that is made of cells has the given identifier, and the given cells exactly when the name
of every given cell leads to that cell. -/
theorem ofCells_faithful (h : ofCells T id cells = .ok r) :
    r.idValue = id ∧
      ((∃ C, r.cells = .ok C ∧ (∀ f q, C.cell? f q = cells.cell? f q) ∧
        ∀ f, f ∈ C.families ↔ ∃ q v, cells.cell? f q = some v) ↔
        ∀ f q v, cells.cell? f q = some v → T.NamesCell f q) := by
  refine ⟨idValue_ofCells h, ?_⟩
  obtain ⟨d, hd, rfl, -⟩ := ofCells_eq_ok h
  rw [← placed_iff]
  constructor
  · rintro ⟨C, hC, hcells, -⟩
    exact placed_of_faithful hd hC hcells
  · intro hplaced
    exact cells_of_entries isIdentifier_of_mem_idEntries hplaced (entries_ofCells hd hplaced)

/-- Qualifiers may have colons, a column may be declared for one cell only, and a family without
qualifiers is left out. -/
theorem ofCells_faithful_with_colons :
    let T : Table := ⟨"s", "t", [.identifier .text, .cell "a" "q:r" .int, .wholeFamily "b" .map],
      NameSet.ofList ["a", "b"]⟩
    let cells : Cells := ofList [("a", ofList [("q:r", .int 1)]), ("c", ∅),
      ("b", ofList [(":", .int 2), ("q:r", .int 3)])]
    ∃ r, ofCells T (.text "k") cells = .ok r ∧ r.idValue = .text "k" ∧
      ∃ C, r.cells = .ok C ∧ C.cell? "a" "q:r" = some (.int 1) ∧ C.cell? "b" ":" = some (.int 2) ∧
        C.cell? "b" "q:r" = some (.int 3) ∧ "c" ∉ C.families := by
  intro T cells
  obtain ⟨r, hr⟩ : ∃ r, ofCells T (.text "k") cells = .ok r := ⟨_, rfl⟩
  obtain ⟨hid, hfaithful⟩ := ofCells_faithful hr
  have hcolumns : ∀ c ∈ T.columns, ∀ g ∈ c.family, ':' ∉ g.toList := by decide
  have hfamilies : ∀ f ∈ cells.families, ':' ∉ f.toList := by decide
  obtain ⟨C, hC, hcell, hmem⟩ := hfaithful.mpr fun f q v hv =>
    Table.namesCell_of_not_mem hcolumns (hfamilies f (Cells.mem_families_of_cell? hv)) q
  refine ⟨r, hr, hid, C, hC, hcell "a" "q:r", hcell "b" ":", hcell "b" "q:r", ?_⟩
  rw [hmem]
  rintro ⟨q, v, hv⟩
  cases hv

/-- Names may lead elsewhere. With families `a` and `a:b` the cell `c` of `a:b` has the name of the
cell `b:c` of `a`: it is moved there, and the value that was given for that cell is lost. -/
theorem ofCells_unfaithful_of_nested_families :
    let T : Table := ⟨"s", "t", [.identifier .binary, .wholeFamily "a" .map,
      .wholeFamily "a:b" .map], NameSet.ofList ["a", "a:b"]⟩
    let cells : Cells := ofList [("a", ofList [("b:c", .int 1)]), ("a:b", ofList [("c", .int 2)])]
    ∃ r, ofCells T (.text "k") cells = .ok r ∧
      ∃ C, r.cells = .ok C ∧
        cells.cell? "a" "b:c" = some (.int 1) ∧ C.cell? "a" "b:c" = some (.int 2) ∧
        cells.cell? "a:b" "c" = some (.int 2) ∧ C.cell? "a:b" "c" = none :=
  ⟨_, rfl, _, rfl, rfl, rfl, rfl, rfl⟩

end Row

end WideColumn
