import WideColumn.Proofs.Row.Keeping
import WideColumn.Proofs.Row.OfCells
import WideColumn.Proofs.Session.Runs
import WideColumn.Proofs.Store.MemoryClient

/-!
# Deleting a row that was inserted

A row is stored under the key of its own identifier and deleted under the key of
the identifier that the caller names. The two keys are made from the same value
unless that value is missing, which counts as no identifier when a row is stored
and as the text `None` when one is deleted, or a mapping for a family called
like the identifier has taken its place in the row.
-/

namespace WideColumn

open Operation OrderedMap

/-- The row was built with an identifier: by attempts at a draft, of which the first successful one
at the identifier gave it, or at once from the identifier and cells. -/
inductive Row.BuiltWith (T : Table) (v : Value) : Row → Prop where
  /-- Through a draft. -/
  | drafted (l : List RowDraft.Staging) (h : (RowDraft.reached T l).id = some v) :
    BuiltWith T v (RowDraft.reached T l).build
  /-- At once. -/
  | ofCells {cells : Cells} {r : Row} (h : Row.ofCells T v cells = .ok r) : BuiltWith T v r

namespace Row.BuiltWith

variable {T : Table} {v : Value} {r : Row}

/-- A row stays with the table that it was built for. -/
theorem table (h : r.BuiltWith T v) : r.table = T := by
  cases h with
  | drafted l => exact RowDraft.table_reached T l
  | ofCells h =>
    obtain ⟨d, hd, rfl, -⟩ := ofCells_eq_ok h
    exact hd.table

/-- The identifier of a row is the one that it was built with, unless a family is called like it. -/
theorem idValue (h : r.BuiltWith T v) (hid : Column.identifierName ∉ T.families) :
    r.idValue = v := by
  cases h with
  | drafted l h =>
    have hcolumn : ∀ w, (RowDraft.reached T l).id = some w →
        ∃ c, (RowDraft.reached T l).table.idColumn = some c := by
      intro w hw
      rw [RowDraft.table_reached]
      exact RowDraft.idColumn_of_id hw
    have hkept := RowDraft.isIdentifier_of_reached hid l
    rw [RowDraft.idValue_build hkept hcolumn, h]
    rfl
  | ofCells h => exact idValue_ofCells h

end Row.BuiltWith

namespace Client

/-- A key that is handed out is no text of another length, such as that of a missing value. -/
theorem keyOfCount_ne_literal_null (n : Nat) : keyOfCount n ≠ Value.null.plainText := by
  intro h
  have hlength := congrArg (fun s => s.toList.length) h
  simp only [keyOfCount, String.toList_ofList, Text.length_hexDigits] at hlength
  revert hlength
  decide

/-- A row that was inserted is written under its key, and a deletion after it drops the row under
the key of the identifier that is named. -/
theorem deleteById_of_insertRow {c c₁ : Client} {m : Memory} (hc : c.store = .memory m)
    (hm : m.Paired) {r : Row} (hT : r.table.idColumn.isSome = true) {v : Value} {j k : String}
    (hj : v.rowKey = .ok j) (hinsert : insertRow r c = (.ok k, c₁)) :
    ∃ cells c₂, WritesRow c c₁ r.table.name k cells ∧ deleteById r.table v c₁ = (.ok (), c₂) ∧
      DropsRow c₁ c₂ r.table.name j := by
  obtain ⟨c', hput, hstore⟩ := insertRow_eq_ok hinsert
  obtain ⟨fs, rows, cells, hfs, hrows, -, -, -, hstore'⟩ := putRow_eq_ok hc hput
  have hc₁ := hstore.trans hstore'
  have hrows' := get?_insert_self m.rows r.table.name (rows.lay k cells)
  obtain ⟨c₂, hdelete, hc₂⟩ := deleteById_of_known hc₁ hfs hrows' hT hj
  exact ⟨cells, c₂, writesRow_of_lay hm hc hrows hc₁, hdelete,
    dropsRow_of_erase (hm.insert_rows hrows _) hc₁ hrows' hc₂⟩

/-- A row that was written and one that was dropped after it are the same exactly when the first is
gone. -/
theorem gone_iff_of_dropsRow {c c₁ c₂ : Client} {table j k : String} {cells : Cells}
    (hwrites : WritesRow c c₁ table k cells) (hdrops : DropsRow c₁ c₂ table j) :
    (getRow table k c₂).1 = .ok none ↔ k = j := by
  constructor
  · intro hgone
    by_cases hkj : k = j
    · exact hkj
    · have hpair : (table, k) ≠ (table, j) := fun h => hkj (Prod.mk.inj h).2
      obtain ⟨before, after, -, hafter, -⟩ := hwrites.row
      rw [hdrops.otherRows table k hpair, hafter] at hgone
      cases hgone
  · rintro rfl
    exact hdrops.row

/-- The key of an inserted row is made from its identifier, or handed out if it has none. -/
theorem key_of_insertRow {c c₁ : Client} {m : Memory} (hc : c.store = .memory m) {r : Row}
    {k : String} (hinsert : insertRow r c = (.ok k, c₁)) :
    (r.idValue = .null → k = keyOfCount (c.keysUsed + 1)) ∧
      (r.idValue ≠ .null → r.idValue.rowKey = .ok k) := by
  obtain ⟨c', hput, -⟩ := insertRow_eq_ok hinsert
  obtain ⟨fs, rows, cells, -, -, -, hnew, hown, -⟩ := putRow_eq_ok hc hput
  exact ⟨hnew, hown⟩

end Client

namespace Session

/-- The store of a session on a memory store stays one, with paired catalogues, whatever the
commands. -/
theorem exists_memory_after (cs : List Command) :
    ∃ m, ((on (.memory .empty)).after cs).client.store = .memory m ∧ m.Paired := by
  have hstable := (Store.stable_setup (fun _ => True) none).and (Store.stable_paired fun _ => True)
  have hstart : (on (.memory .empty)).client.store.setup = none ∧
      (on (.memory .empty)).client.store.Paired := ⟨rfl, Memory.paired_empty⟩
  have hmerge : ∀ table row cells, .store (.mergeRow table row cells) ∈ cs →
      Keeps (fun st => st.setup = none ∧ st.Paired) (Store.mergeRow table row cells) :=
    fun table row cells _ st hst => ⟨Store.keeps_setup_mergeRow none table row cells st hst.1,
      Store.keeps_paired_mergeRow table row cells st hst.2⟩
  obtain ⟨hsetup, hpaired⟩ := after_of_stable hstable hmerge hstart
  obtain ⟨m, hstore⟩ := Store.exists_memory_of_setup hsetup
  rw [hstore] at hpaired
  exact ⟨m, hstore, hpaired⟩

/-- Deleting by identifier undoes inserting exactly when both make one key of it: so it is, if no
family is called like the identifier, unless the identifier is a missing value. -/
theorem deleteById_of_inserted (cs : List Command) {T : Table} (hT : T.idColumn.isSome = true)
    {v : Value} {r : Row} (hr : r.BuiltWith T v) {j k : String} (hj : v.rowKey = .ok j)
    {c : Client}
    (hinsert : Client.insertRow r ((on (.memory .empty)).after cs).client = (.ok k, c)) :
    ∃ c', Client.deleteById T v c = (.ok (), c') ∧ Client.DropsRow c c' T.name j ∧
      (∀ t key, (t, key) ≠ (T.name, j) → (t, key) ≠ (T.name, k) → (Client.getRow t key c').1 =
        (Client.getRow t key ((on (.memory .empty)).after cs).client).1) ∧
      ((Client.getRow T.name k c').1 = .ok none ↔ k = j) ∧
      (Column.identifierName ∉ T.families → (k = j ↔ v ≠ .null)) := by
  obtain ⟨m, hm, hpaired⟩ := exists_memory_after cs
  have hT' : r.table.idColumn.isSome = true := hr.table ▸ hT
  obtain ⟨cells, c', hwrites, hdelete, hdrops⟩ :=
    Client.deleteById_of_insertRow hm hpaired hT' hj hinsert
  obtain ⟨hnew, hown⟩ := Client.key_of_insertRow hm hinsert
  rw [hr.table] at hwrites hdelete hdrops
  refine ⟨c', hdelete, hdrops, ?_, Client.gone_iff_of_dropsRow hwrites hdrops, ?_⟩
  · intro t key hnej hnek
    rw [hdrops.otherRows t key hnej, hwrites.otherRows t key hnek]
  · intro hid
    rw [hr.idValue hid] at hnew hown
    constructor
    · rintro rfl hnull
      have hkey := hnew hnull
      subst hnull
      have hj' : Value.null.plainText = k := Except.ok.inj hj
      exact Client.keyOfCount_ne_literal_null _ (hkey.symm.trans hj'.symm)
    · intro hne
      exact Except.ok.inj ((hown hne).symm.trans hj)

/-- The identifier is given as bytes, there is another row in the table, and a row under the same key
in another table. Only the inserted row goes. -/
theorem deleteById_of_inserted_bytes :
    let cells : Cells := OrderedMap.ofList [("f", OrderedMap.ofList [("q", .int 0)])]
    let cs : List Command := [.client (.createTable (some "t") (.names ["f"])),
      .client (.createTable (some "u") (.names ["f"])), .store (.put "u" "k" cells),
      .store (.put "t" "l" cells)]
    let T : Table :=
      ⟨"s", "t", [.identifier .binary, .wholeFamily "f" .map], NameSet.ofList ["f"]⟩
    let v : Value := .bytes (.ofText "k")
    let r := (RowDraft.reached T [.identifier v, .value (.named "f:q") (.int 1)]).build
    let s := (on (.memory .empty)).after cs
    ∃ c c', Client.insertRow r s.client = (.ok "k", c) ∧
      Client.deleteById T v c = (.ok (), c') ∧ (Client.getRow "t" "k" c').1 = .ok none ∧
      (Client.getRow "t" "l" c').1 = .ok (some cells) ∧
      (Client.getRow "u" "k" c').1 = .ok (some cells) := by
  intro cells cs T v r s
  have hr : r.BuiltWith T v := .drafted _ rfl
  obtain ⟨c, hinsert⟩ : ∃ c, Client.insertRow r s.client = (.ok "k", c) := ⟨_, rfl⟩
  obtain ⟨c', hdelete, hdrops, hothers, -⟩ :=
    deleteById_of_inserted cs rfl hr rfl hinsert
  refine ⟨c, c', hinsert, hdelete, hdrops.row, ?_, ?_⟩
  · rw [hothers "t" "l" (by decide) (by decide)]
    rfl
  · rw [hothers "u" "k" (by decide) (by decide)]
    rfl

/-- A row with a missing identifier is stored under a key that is handed out and deleted under
`None`; one whose identifier a mapping replaces is not found under the old one. -/
theorem deleteById_misses_inserted :
    let cells : Cells := OrderedMap.ofList [("f", OrderedMap.ofList [("q", .int 1)])]
    let cs : List Command :=
      [.client (.createTable (some "t") (.names ["f"])), .store (.put "t" "None" cells)]
    let T : Table :=
      ⟨"s", "t", [.identifier .binary, .wholeFamily "f" .map], NameSet.ofList ["f"]⟩
    let r := (RowDraft.reached T [.identifier .null, .value (.named "f:q") (.int 2)]).build
    let cs' : List Command := [.client (.createTable (some "t") (.names ["_id"]))]
    let T' : Table :=
      ⟨"s", "t", [.identifier .binary, .wholeFamily "_id" .map], NameSet.ofList ["_id"]⟩
    let r' := (RowDraft.reached T' [.identifier (.text "k"),
      .value (.given (.wholeFamily "_id" .map)) (.mapping [(.text "x", .int 1)])]).build
    (r.BuiltWith T .null ∧ Value.rowKey .null = .ok "None" ∧
      ∃ k c c', Client.insertRow r ((on (.memory .empty)).after cs).client = (.ok k, c) ∧
        (Client.getRow "t" "None" c).1 = .ok (some cells) ∧
        Client.deleteById T .null c = (.ok (), c') ∧ (Client.getRow "t" k c').1 ≠ .ok none ∧
        (Client.getRow "t" "None" c').1 = .ok none) ∧
    (r'.BuiltWith T' (.text "k") ∧ Value.rowKey (.text "k") = .ok "k" ∧
      ∃ c c', Client.insertRow r' ((on (.memory .empty)).after cs').client =
          (.ok "\x7b'x': 1\x7d", c) ∧
        Client.deleteById T' (.text "k") c = (.ok (), c') ∧
        (Client.getRow "t" "\x7b'x': 1\x7d" c').1 = .ok (some ∅)) := by
  intro cells cs T r cs' T' r'
  have hr : r.BuiltWith T .null := .drafted _ rfl
  have hr' : r'.BuiltWith T' (.text "k") := .drafted _ rfl
  obtain ⟨m, hm, hpaired⟩ := exists_memory_after cs
  obtain ⟨c, hinsert⟩ : ∃ c, Client.insertRow r ((on (.memory .empty)).after cs).client =
      (.ok (Client.keyOfCount 1), c) := ⟨_, rfl⟩
  obtain ⟨laid, c', hwrites, hdelete, hdrops⟩ :=
    Client.deleteById_of_insertRow (v := .null) hm hpaired rfl rfl hinsert
  have hkey : Client.keyOfCount 1 ≠ "None" := Client.keyOfCount_ne_literal_null 1
  have hname : r.table.name = "t" := rfl
  rw [hname] at hwrites hdrops
  have hother : (Client.getRow "t" "None" c).1 = .ok (some cells) := by
    have hpair : ("t", "None") ≠ ("t", Client.keyOfCount 1) := fun h => hkey (Prod.mk.inj h).2.symm
    rw [hwrites.otherRows "t" _ hpair]
    rfl
  have hstays := mt (Client.gone_iff_of_dropsRow hwrites hdrops).mp hkey
  exact ⟨⟨hr, rfl, _, c, c', hinsert, hother, hdelete, hstays, hdrops.row⟩,
    ⟨hr', rfl, _, _, rfl, rfl, rfl⟩⟩

end Session

end WideColumn
